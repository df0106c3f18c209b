import WebTransportEcho.Server.Answered
import WebTransportEcho.Split

/-! What a request can reach of the server's files. The path of a request is resolved and compared
    with the public directory as text; `files_confined` says what that comes to: no response depends
    on a file that is not below that directory, name by name, and every file below it is served under
    its own path. -/

namespace WebTransportEcho.Server
open Js Store

/-! ### Names and paths -/

/-- The name of a file or a directory: none that leads elsewhere. -/
def IsName (name : String) : Prop := '/' ∉ name.toList ∧ name ≠ "" ∧ name ≠ "." ∧ name ≠ ".."

def pathOf (names : List String) : String := "/" ++ String.intercalate "/" names

def Below (dir : List String) (file : String) : Prop :=
  ∃ names, (∀ name ∈ names, IsName name) ∧ file = pathOf (dir ++ names)

/-- One segment of a path, resolved behind those before it. -/
def resolveStep (done : List String) (s : String) : List String :=
  if s = "" ∨ s = "." then done else if s = ".." then done.dropLast else done ++ [s]

theorem resolveSegments_append (path more : List String) :
    resolveSegments (path ++ more) = more.foldl resolveStep (resolveSegments path) := List.foldl_append

theorem resolveStep_names {done : List String} {s : String} (hdone : ∀ name ∈ done, IsName name)
    (hs : '/' ∉ s.toList) : ∀ name ∈ resolveStep done s, IsName name := by
  intro name hname
  rw [resolveStep] at hname
  split_ifs at hname with hstay hback
  · exact hdone name hname
  · exact hdone name (List.mem_of_mem_dropLast hname)
  · rcases List.mem_append.mp hname with hold | hnew
    · exact hdone name hold
    · rw [List.mem_singleton.mp hnew]
      exact ⟨hs, fun h => hstay (.inl h), fun h => hstay (.inr h), hback⟩

theorem resolve_names {path : List String} (hpath : ∀ s ∈ path, '/' ∉ s.toList) {done : List String}
    (hdone : ∀ name ∈ done, IsName name) : ∀ name ∈ path.foldl resolveStep done, IsName name := by
  induction path generalizing done with
  | nil => exact hdone
  | cons s path ih =>
    rw [List.foldl_cons]
    exact ih (fun t ht => hpath t (List.mem_cons_of_mem _ ht))
      (resolveStep_names hdone (hpath s List.mem_cons_self))

/-- Names are resolved to themselves. -/
theorem resolve_of_names {names done : List String} (h : ∀ name ∈ names, IsName name) :
    names.foldl resolveStep done = done ++ names := by
  induction names generalizing done with
  | nil => exact (List.append_nil done).symm
  | cons name names ih =>
    obtain ⟨-, hempty, hdot, hdots⟩ := h name List.mem_cons_self
    have hstep : resolveStep done name = done ++ [name] := by
      rw [resolveStep, if_neg (by tauto), if_neg hdots]
    rw [List.foldl_cons, hstep, ih fun n hn => h n (List.mem_cons_of_mem _ hn), List.append_assoc]
    rfl

/-! ### Segments -/

theorem segments_no_slash (path : String) : ∀ s ∈ segments path, '/' ∉ s.toList := by
  intro s hs
  obtain ⟨piece, hpiece, rfl⟩ := List.mem_map.mp hs
  rw [String.toList_ofList]
  exact Split.not_mem_of_mem_splitOn hpiece

theorem segments_append_slash (path rest : String) :
    segments (path ++ "/" ++ rest) = segments path ++ segments rest := by
  have hslash : ("/" : String).toList = ['/'] := rfl
  rw [segments, String.toList_append, String.toList_append, hslash, List.append_assoc,
    List.singleton_append, List.splitOn_append_cons_self, List.map_append]
  rfl

theorem segments_pathOf {names : List String} (hnames : ∀ name ∈ names, IsName name)
    (hne : names ≠ []) : segments (pathOf names) = "" :: names := by
  have hslash : ("/" : String).toList = ['/'] := rfl
  have hpieces : ∀ piece ∈ names.map String.toList, '/' ∉ piece := by
    intro piece hpiece
    obtain ⟨name, hname, rfl⟩ := List.mem_map.mp hpiece
    exact (hnames name hname).1
  have hsplit := List.splitOn_intercalate '/' hpieces (by simpa using hne)
  rw [pathOf, show "/" ++ String.intercalate "/" names = "" ++ "/" ++ String.intercalate "/" names by simp,
    segments_append_slash, segments, segments, String.toList_intercalate, hslash, hsplit, List.map_map]
  simp

/-! ### The public directory -/

def PageServer.publicNames (server : PageServer) : List String :=
  resolveSegments (segments (join [server.root, "public"]))

theorem join_append {parts : List String} (hparts : (parts.filter fun part => part ≠ "") ≠ [])
    {part : String} (hpart : part ≠ "") : join (parts ++ [part]) = join parts ++ "/" ++ part := by
  have hone : [part].filter (fun part => decide (part ≠ "")) = [part] := by simp [hpart]
  rw [join, List.filter_append, hone, join,
    String.intercalate_append_of_ne_nil hparts (List.cons_ne_nil _ _), String.intercalate_singleton]

theorem segments_public (root : String) :
    ∃ front, segments (join [root, "public"]) = front ++ ["public"] := by
  have hpublic : segments "public" = ["public"] := by decide
  by_cases hroot : root = ""
  · rw [hroot, show join ["", "public"] = "public" by decide, hpublic]
    exact ⟨[], rfl⟩
  · have hfilter : ([root].filter fun part => decide (part ≠ "")) ≠ [] := by simp [hroot]
    have hjoin : join [root, "public"] = join [root] ++ "/" ++ "public" := join_append hfilter (by decide)
    rw [hjoin, segments_append_slash, hpublic]
    exact ⟨_, rfl⟩

theorem publicNames_ne_nil (server : PageServer) : server.publicNames ≠ [] := by
  obtain ⟨front, hfront⟩ := segments_public server.root
  have hname : ∀ name ∈ ["public"], IsName name := by simp [IsName]
  rw [PageServer.publicNames, hfront, resolveSegments_append, resolve_of_names hname]
  simp

theorem publicNames_names (server : PageServer) : ∀ name ∈ server.publicNames, IsName name :=
  resolve_names (segments_no_slash _) (by simp)

theorem publicRoot_eq (server : PageServer) : server.publicRoot = pathOf server.publicNames := rfl

/-- The file of a path: what the path leads to from the public directory. -/
def PageServer.fileOf (server : PageServer) (pathname : String) : List String :=
  (segments pathname).foldl resolveStep server.publicNames

theorem fileOf_names (server : PageServer) (pathname : String) :
    ∀ name ∈ server.fileOf pathname, IsName name :=
  resolve_names (segments_no_slash _) (publicNames_names server)

theorem resolve_join (server : PageServer) (pathname : String) :
    resolve (join [server.root, "public", pathname]) = pathOf (server.fileOf pathname) := by
  by_cases hempty : pathname = ""
  · have hjoin : join [server.root, "public", pathname] = join [server.root, "public"] := by
      simp [join, hempty, List.filter_cons]
    have hfile : server.fileOf pathname = server.publicNames := by
      rw [hempty]
      rfl
    rw [hjoin, hfile]
    rfl
  · have hmem : "public" ∈ [server.root, "public"].filter fun part => decide (part ≠ "") := by simp
    have hfilter := List.ne_nil_of_mem hmem
    have hjoin : join [server.root, "public", pathname] =
        join [server.root, "public"] ++ "/" ++ pathname := join_append hfilter hempty
    rw [hjoin, resolve, segments_append_slash, resolveSegments_append]
    rfl

/-- The test of the text is a test of the names. -/
theorem below_iff (server : PageServer) {file : List String} (hfile : ∀ name ∈ file, IsName name) :
    (startsWith (pathOf file) (server.publicRoot ++ "/") = true ∨ pathOf file = server.publicRoot) ↔
      Below server.publicNames (pathOf file) := by
  have hroot := segments_pathOf (publicNames_names server) (publicNames_ne_nil server)
  have hsplit (rest : String) (h : pathOf file = pathOf server.publicNames ++ "/" ++ rest) :
      Below server.publicNames (pathOf file) := by
    have hsegments := congrArg segments h
    rw [segments_append_slash, hroot] at hsegments
    have hne : file ≠ [] := by
      rintro rfl
      obtain ⟨first, others, hcons⟩ := List.exists_cons_of_ne_nil (publicNames_ne_nil server)
      rw [hcons, show segments (pathOf []) = ["", ""] by decide] at hsegments
      have hfirst : first = "" := by simpa using (List.cons.inj (List.cons.inj hsegments).2).1.symm
      exact (publicNames_names server first (hcons ▸ List.mem_cons_self)).2.1 hfirst
    rw [segments_pathOf hfile hne, List.cons_append] at hsegments
    have heq := (List.cons.inj hsegments).2
    exact ⟨segments rest, fun name hname => hfile name (heq ▸ List.mem_append_right _ hname),
      congrArg pathOf heq⟩
  constructor
  · rintro (hstarts | heq)
    · rw [startsWith, List.isPrefixOf_iff_prefix] at hstarts
      obtain ⟨rest, hrest⟩ := hstarts
      refine hsplit (String.ofList rest) (String.toList_inj.mp ?_)
      rw [String.toList_append, String.toList_ofList]
      exact hrest.symm
    · exact ⟨[], by simp, by rw [heq, List.append_nil]; rfl⟩
  · rintro ⟨names, hnames, heq⟩
    rw [heq, publicRoot_eq]
    cases names with
    | nil => exact .inr (by rw [List.append_nil])
    | cons name names =>
      refine .inl ?_
      rw [startsWith, List.isPrefixOf_iff_prefix, pathOf, pathOf,
        String.intercalate_append_of_ne_nil (publicNames_ne_nil server) (List.cons_ne_nil _ _)]
      exact ⟨(String.intercalate "/" (name :: names)).toList, by simp⟩

/-! ### What is read -/

/-- What a request for a file gets: its bytes, or that there is no such file. -/
inductive Served (read : Except Error (List UInt8)) : List Write → Prop where
  | found {headers : Headers} {bytes : List UInt8} (h : read = .ok bytes) :
      Served read [.head 200 headers, .finish (.bytes bytes)]
  | missing {headers : Headers} {text : String} {e : Error} (h : read = .error e) :
      Served read [.head 404 headers, .finish (.text text)]
section

variable {newUrl : String → String → Option String} {server : PageServer} {a : Answers}
  {req : Request} {pathname : String}

/-- A path that leads out of the public directory. -/
theorem serveFile_outside (h : ¬ Below server.publicNames (pathOf (server.fileOf pathname))) :
    serveFile server a pathname = respond server 403 [plainText] (.text "forbidden") := by
  rw [← below_iff server (fileOf_names server pathname), not_or] at h
  rw [serveFile]
  simp only [resolve_join]
  rw [if_pos ⟨by simpa using h.1, h.2⟩]

/-- One that does not. -/
theorem serveFile_below (h : Below server.publicNames (pathOf (server.fileOf pathname))) :
    serveFile server a pathname = tryCatch
      (do
        let body ← attempt (a.readFile (pathOf (server.fileOf pathname)))
        respond server 200 [("content-type", (mime.lookup (extname (pathOf (server.fileOf pathname)))).getD
          "application/octet-stream"), noStore] (.bytes body))
      fun _ => respond server 404 [plainText] (.text s!"not found: {pathname}\n") := by
  rw [← below_iff server (fileOf_names server pathname)] at h
  rw [serveFile]
  simp only [resolve_join]
  rw [if_neg fun hout => h.elim (fun hs => by simp [hs] at hout) hout.2]

theorem serveFile_served (h : Below server.publicNames (pathOf (server.fileOf pathname))) :
    Served (a.readFile (pathOf (server.fileOf pathname)))
      ((serveFile server a pathname).run.run fresh).2.writes := by
  rw [serveFile_below h]
  cases hread : a.readFile (pathOf (server.fileOf pathname)) with
  | ok bytes => exact .found rfl
  | error e => exact .missing rfl

/-- The paths that are no files. -/
def routes : List String :=
  ["/api/browser-results", "/cert-sha256.json", "/matrix-config.json", "/healthz"]

theorem requestHandler_file (hurl : newUrl (req.url.getD "/") req.base = some pathname)
    (hroutes : pathname ∉ routes) : requestHandler newUrl server a req =
      serveFile server a (if pathname = "/" then "/index.html" else pathname) := by
  simp only [routes, List.mem_cons, List.not_mem_nil, or_false, not_or] at hroutes
  obtain ⟨hapi, hcert, hmatrix, hhealth⟩ := hroutes
  simp only [requestHandler, hurl, if_neg hapi, if_neg hcert, if_neg hmatrix, if_neg hhealth]

/-- Below the public directory, the files answer alike. -/
theorem serveFile_congr {readFile : String → Except Error (List UInt8)}
    (h : ∀ file, Below server.publicNames file → readFile file = a.readFile file) :
    serveFile server { a with readFile } pathname = serveFile server a pathname := by
  by_cases hbelow : Below server.publicNames (pathOf (server.fileOf pathname))
  · have hfile := h _ hbelow
    rw [serveFile_below hbelow, serveFile_below hbelow]
    simp only [hfile]
  · rw [serveFile_outside hbelow, serveFile_outside hbelow]

theorem fileOf_pathOf (server : PageServer) {names : List String} (h : ∀ name ∈ names, IsName name)
    (hne : names ≠ []) :
    server.fileOf (pathOf names) = server.publicNames ++ names := by
  rw [PageServer.fileOf, segments_pathOf h hne]
  exact resolve_of_names h

/-- No response depends on a file that is not below the public directory, and a request for one that is
    gets it, or is told that there is none. -/
theorem files_confined (newUrl : String → String → Option String) (server : PageServer) (a : Answers)
    (req : Request) :
    (∀ readFile, (∀ file, Below server.publicNames file → readFile file = a.readFile file) →
      requestHandler newUrl server { a with readFile } req = requestHandler newUrl server a req) ∧
    ∀ names, (∀ name ∈ names, IsName name) → names ≠ [] → pathOf names ∉ routes →
      newUrl (req.url.getD "/") req.base = some (pathOf names) →
      Served (a.readFile (pathOf (server.publicNames ++ names)))
        ((requestHandler newUrl server a req).run.run fresh).2.writes := by
  constructor
  · intro readFile hread
    unfold requestHandler
    split
    · rfl
    · split_ifs
      · rfl
      · rfl
      · rfl
      · rfl
      · exact serveFile_congr hread
      · exact serveFile_congr hread
  · intro names hnames hne hroutes hurl
    have hfile := fileOf_pathOf server hnames hne
    have hslash : pathOf names ≠ "/" := by
      intro h
      have hsegments := segments_pathOf hnames hne
      rw [h, show segments "/" = ["", ""] by decide] at hsegments
      obtain rfl := (List.cons.inj hsegments).2
      exact (hnames "" List.mem_cons_self).2.1 rfl
    rw [requestHandler_file hurl hroutes, if_neg hslash, ← hfile]
    exact serveFile_served ⟨names, hnames, congrArg pathOf hfile⟩

end

/-- One file, and no others. -/
def oneFile : Answers where
  now := 0
  lastSubmissionAt _ := none
  recorded := .error (.error "nothing is recorded")
  snapshot := .error (.error "no snapshot is taken")
  readFile file := if file = "/srv/app/public/results.js" then .ok [0x76, 0x61, 0x72] else
    .error (.error "ENOENT: no such file or directory")

theorem oneFile_served : Served (.ok [0x76, 0x61, 0x72])
    ((requestHandler plainUrl pageServer oneFile (getRequest "/results.js")).run.run fresh).2.writes := by
  have hname : ∀ name ∈ ["results.js"], IsName name := by simp [IsName]
  exact (files_confined plainUrl pageServer oneFile (getRequest "/results.js")).2 ["results.js"] hname
    (List.cons_ne_nil _ _) (by decide) (by decide)

end WebTransportEcho.Server
