import WebTransportEcho.Split

/-! Socket addresses as Rust's standard library reads them: an IPv4 address, or an IPv6 address in
    brackets, and a port behind a colon. A reader takes what it can use of the front of a text, and the
    text is an address when nothing is left. The port is what stands behind the last colon, and what
    stands before it is read the same with every port (`parse_port`). -/

namespace SocketAddr

/-- The octets of an IPv4 address, or the groups of an IPv6 address and its scope. -/
inductive Ip where
  | v4 (octets : List Nat)
  | v6 (groups : List Nat) (scopeId : Nat)
  deriving DecidableEq

structure Addr where
  ip : Ip
  port : Nat
  deriving DecidableEq

/-- A reader gives what it has read and the text behind it. -/
abbrev Reader := StateT (List Char) Option

/-- `char::to_digit`. -/
def digitOf (radix : Nat) (c : Char) : Option Nat :=
  let digit :=
    if '0'.toNat ≤ c.toNat ∧ c.toNat ≤ '9'.toNat then some (c.toNat - '0'.toNat)
    else if 'a'.toNat ≤ c.toNat ∧ c.toNat ≤ 'z'.toNat then some (c.toNat - 'a'.toNat + 10)
    else if 'A'.toNat ≤ c.toNat ∧ c.toNat ≤ 'Z'.toNat then some (c.toNat - 'A'.toNat + 10)
    else none
  digit.filter fun d => decide (d < radix)

def readChar (c : Char) : Reader Unit
  | [] => none
  | d :: text => if d = c then some ((), text) else none

/-- All digits that stand there are the number's: at most `maxDigits`, and of a value up to `limit`. -/
def readNumber (radix : Nat) (maxDigits : Option Nat) (limit : Nat) (zeros : Bool) : Reader Nat :=
  fun text =>
    let digits := text.takeWhile fun c => (digitOf radix c).isSome
    let value := digits.foldl (fun n c => radix * n + (digitOf radix c).getD 0) 0
    if digits = [] ∨ (maxDigits.any fun most => decide (most < digits.length)) = true ∨ limit < value ∨
        (zeros = false ∧ digits.head? = some '0' ∧ 1 < digits.length) then none
    else some (value, text.dropWhile fun c => (digitOf radix c).isSome)

/-- No separator stands before the first of the values. -/
def readSeparated {α : Type} (separator : Char) (index : Nat) (inner : Reader α) : Reader α :=
  if index = 0 then inner
  else do
    readChar separator
    inner

def readOctet (index : Nat) : Reader Nat :=
  readSeparated '.' index (readNumber 10 (some 3) 255 false)

def readIpv4 : Reader (List Nat) := do
  let a ← readOctet 0
  let b ← readOctet 1
  let c ← readOctet 2
  let d ← readOctet 3
  return [a, b, c, d]

/-- The two groups of an embedded IPv4 address. -/
def groupsOf : List Nat → List Nat
  | a :: b :: rest => (256 * a + b) :: groupsOf rest
  | _ => []

/-- At most `left` groups, from the index on, and whether the last of them were an IPv4 address. -/
def readGroups (index : Nat) : Nat → Reader (List Nat × Bool)
  | 0 => pure ([], false)
  | left + 1 =>
    let group := (do
      let group ← readSeparated ':' index (readNumber 16 (some 4) 65535 true)
      let rest ← readGroups (index + 1) left
      return (group :: rest.1, rest.2)) <|> pure ([], false)
    if left = 0 then group
    else (do
      let octets ← readSeparated ':' index readIpv4
      return (groupsOf octets, true)) <|> group

/-- Two colons stand for the groups that are left out. -/
def readIpv6 : Reader (List Nat) := do
  let head ← readGroups 0 8
  if head.1.length = 8 then return head.1
  else if head.2 then failure
  else
    readChar ':'
    readChar ':'
    let tail ← readGroups 0 (8 - (head.1.length + 1))
    return head.1 ++ List.replicate (8 - head.1.length - tail.1.length) 0 ++ tail.1

def readScopeId : Reader Nat := do
  readChar '%'
  readNumber 10 none 4294967295 true

def readDigits : Reader Nat := readNumber 10 none 65535 true

def readPort : Reader Nat := do
  readChar ':'
  readDigits

def readV4 : Reader Addr := do
  let octets ← readIpv4
  let port ← readPort
  return { ip := .v4 octets, port }

/-- What stands between the brackets. -/
def readBracketed : Reader Ip := do
  let groups ← readIpv6
  let scopeId ← readScopeId <|> pure 0
  return .v6 groups scopeId

def readV6 : Reader Addr := do
  readChar '['
  let ip ← readBracketed
  readChar ']'
  let port ← readPort
  return { ip, port }

/-- `SocketAddr::from_str`. -/
def parse (text : List Char) : Option Addr :=
  match (readV4 <|> readV6).run text with
  | some (addr, []) => some addr
  | _ => none

/-! ### What a reader does not read -/

/-- The reader does not get beyond the character, and does not see what stands behind it. -/
def Stops {α : Type} (c : Char) (r : Reader α) : Prop :=
  ∀ s : List Char, c ∉ s → (∀ x rest, r s = some (x, rest) → c ∉ rest) ∧
    ∀ t, r (s ++ c :: t) = (r s).map fun p => (p.1, p.2 ++ c :: t)

section Stops

variable {α β : Type} {c : Char}

theorem stops_pure (x : α) : Stops c (pure x : Reader α) := by
  intro s hs
  refine ⟨?_, fun t => rfl⟩
  rintro y rest ⟨⟩
  exact hs

theorem stops_failure : Stops c (failure : Reader α) := by
  intro s hs
  refine ⟨fun x rest h => ?_, fun t => rfl⟩
  cases h

theorem stops_bind {r : Reader α} {f : α → Reader β} (hr : Stops c r) (hf : ∀ x, Stops c (f x)) :
    Stops c (r >>= f) := by
  intro s hs
  obtain ⟨hrest, happend⟩ := hr s hs
  have hbind (text : List Char) : (r >>= f) text = (r text).bind fun p => f p.1 p.2 := rfl
  refine ⟨fun y rest h => ?_, fun t => ?_⟩
  · rw [hbind] at h
    obtain ⟨⟨x, middle⟩, hx, hy⟩ := Option.bind_eq_some_iff.mp h
    exact (hf x middle (hrest x middle hx)).1 y rest hy
  · rw [hbind, hbind, happend]
    cases hx : r s with
    | none => rfl
    | some p => exact (hf p.1 p.2 (hrest p.1 p.2 hx)).2 t

theorem stops_orElse {r r' : Reader α} (hr : Stops c r) (hr' : Stops c r') : Stops c (r <|> r') := by
  intro s hs
  obtain ⟨hrest, happend⟩ := hr s hs
  obtain ⟨hrest', happend'⟩ := hr' s hs
  have horElse (text : List Char) : (r <|> r') text = (r text <|> r' text) := rfl
  refine ⟨fun x rest h => ?_, fun t => ?_⟩
  · rw [horElse] at h
    cases hx : r s with
    | none =>
      rw [hx] at h
      exact hrest' x rest h
    | some p =>
      rw [hx] at h
      cases h
      exact hrest x rest hx
  · rw [horElse, horElse, happend, happend']
    cases r s <;> rfl

theorem stops_char {d : Char} (h : c ≠ d) : Stops c (readChar d) := by
  intro s hs
  cases s with
  | nil =>
    refine ⟨fun x rest h => ?_, fun t => if_neg h⟩
    cases h
  | cons e s =>
    refine ⟨fun x rest hread => ?_, fun t => ?_⟩
    · rw [readChar] at hread
      split_ifs at hread
      cases hread
      exact List.not_mem_of_not_mem_cons hs
    · rw [List.cons_append, readChar, readChar]
      split_ifs <;> rfl

theorem stops_number {radix : Nat} (h : digitOf radix c = none) (maxDigits : Option Nat) (limit : Nat)
    (zeros : Bool) : Stops c (readNumber radix maxDigits limit zeros) := by
  intro s hs
  have hnot (t : List Char) : ∀ d ∈ (c :: t).head?, (digitOf radix d).isSome = false := by
    rintro d ⟨⟩
    rw [h]
    rfl
  refine ⟨fun x rest hread => ?_, fun t => ?_⟩
  · rw [readNumber] at hread
    split_ifs at hread
    cases hread
    exact fun hmem => hs (List.dropWhile_subset _ hmem)
  · rw [readNumber, readNumber, Split.takeWhile_append_stop (hnot t), Split.dropWhile_append_stop (hnot t)]
    split_ifs <;> rfl

theorem stops_separated {d : Char} (h : c ≠ d) (index : Nat) {inner : Reader α} (hinner : Stops c inner) :
    Stops c (readSeparated d index inner) := by
  unfold readSeparated
  split_ifs
  · exact hinner
  · exact stops_bind (stops_char h) fun _ => hinner

theorem stops_octet (h : c ≠ '.') (hdigit : digitOf 10 c = none) (index : Nat) : Stops c (readOctet index) :=
  stops_separated h index (stops_number hdigit (some 3) 255 false)

theorem stops_ipv4 (h : c ≠ '.') (hdigit : digitOf 10 c = none) : Stops c readIpv4 :=
  stops_bind (stops_octet h hdigit 0) fun _ => stops_bind (stops_octet h hdigit 1) fun _ =>
    stops_bind (stops_octet h hdigit 2) fun _ => stops_bind (stops_octet h hdigit 3) fun _ => stops_pure _

theorem stops_groups (hcolon : c ≠ ':') (hdot : c ≠ '.') (hten : digitOf 10 c = none)
    (hdigit : digitOf 16 c = none) : ∀ left index, Stops c (readGroups index left)
  | 0, _ => stops_pure _
  | left + 1, index => by
    have hgroup := stops_orElse (stops_bind (stops_separated hcolon index
      (stops_number hdigit (some 4) 65535 true)) fun group =>
        stops_bind (stops_groups hcolon hdot hten hdigit left (index + 1)) fun rest =>
          stops_pure (group :: rest.1, rest.2)) (stops_pure ([], false))
    rw [readGroups]
    split_ifs
    · exact hgroup
    · exact stops_orElse (stops_bind (stops_separated hcolon index (stops_ipv4 hdot hten)) fun _ =>
        stops_pure _) hgroup

theorem stops_bracketed : Stops ']' readBracketed := by
  have hgroups (left : Nat) : Stops ']' (readGroups 0 left) :=
    stops_groups (by decide) (by decide) (by decide) (by decide) left 0
  have hscope : Stops ']' readScopeId :=
    stops_bind (stops_char (by decide)) fun _ => stops_number (by decide) none 4294967295 true
  have hipv6 : Stops ']' readIpv6 := by
    refine stops_bind (hgroups 8) fun head => ?_
    split_ifs
    · exact stops_pure _
    · exact stops_failure
    · exact stops_bind (stops_char (by decide)) fun _ => stops_bind (stops_char (by decide)) fun _ =>
        stops_bind (hgroups _) fun _ => stops_pure _
  exact stops_bind hipv6 fun _ => stops_bind (stops_orElse hscope (stops_pure 0)) fun _ => stops_pure _

/-- Where a reader ends that has stopped at the character. -/
theorem stopped_at {r : Reader α} (hr : Stops c r) {s rest : List Char} {x : α}
    (h : r s = some (x, c :: rest)) : ∃ front, s = front ++ c :: rest ∧ c ∉ front ∧
      ∀ t, r (front ++ c :: t) = some (x, c :: t) := by
  have hmem : c ∈ s := by
    by_contra hs
    exact (hr s hs).1 x (c :: rest) h List.mem_cons_self
  obtain ⟨front, behind, rfl, hfront⟩ := List.eq_append_cons_of_mem hmem
  obtain ⟨hrest, happend⟩ := hr front hfront
  rw [happend] at h
  obtain ⟨⟨y, last⟩, hy, heq⟩ := Option.map_eq_some_iff.mp h
  obtain ⟨rfl, hsplit⟩ := Prod.mk.inj heq
  cases last with
  | nil =>
    obtain ⟨-, rfl⟩ := List.cons.inj hsplit
    refine ⟨front, rfl, hfront, fun t => ?_⟩
    rw [happend, hy]
    rfl
  | cons d last =>
    obtain ⟨rfl, -⟩ := List.cons.inj hsplit
    exact absurd List.mem_cons_self (hrest y _ hy)

end Stops

/-! ### The port -/

/-- The text is this port, in decimal. -/
def IsPort (text : List Char) (n : Nat) : Prop := readDigits text = some (n, [])

theorem IsPort.digits {text : List Char} {n : Nat} (h : IsPort text n) :
    text ≠ [] ∧ (∀ c ∈ text, (digitOf 10 c).isSome = true) ∧
      n = text.foldl (fun n c => 10 * n + (digitOf 10 c).getD 0) 0 ∧ n ≤ 65535 := by
  rw [IsPort, readDigits, readNumber] at h
  split at h
  · cases h
  · next hbad =>
    obtain ⟨hvalue, hrest⟩ := Prod.mk.inj (Option.some.inj h)
    have hall := List.dropWhile_eq_nil_iff.mp hrest
    rw [List.takeWhile_eq_self_iff.mpr hall] at hbad hvalue
    simp only [not_or, not_lt] at hbad
    exact ⟨hbad.1, hall, hvalue.symm, hvalue ▸ hbad.2.2.1⟩

theorem IsPort.notMem {text : List Char} {n : Nat} (h : IsPort text n) : ':' ∉ text := by
  intro hmem
  exact absurd (h.digits.2.1 ':' hmem) (by decide)

theorem readChar_eq {c : Char} {text rest : List Char} :
    readChar c text = some ((), rest) ↔ text = c :: rest := by
  cases text with
  | nil => simp [readChar]
  | cons d text =>
    rw [readChar]
    split_ifs with hd
    · simp [hd]
    · simp [hd]

theorem readPort_eq {text : List Char} {n : Nat} :
    readPort text = some (n, []) ↔ ∃ digits, text = ':' :: digits ∧ IsPort digits n := by
  have hread : readPort text = (readChar ':' text).bind fun p => readDigits p.2 := rfl
  rw [hread]
  constructor
  · intro h
    obtain ⟨⟨⟨⟩, digits⟩, hchar, h⟩ := Option.bind_eq_some_iff.mp h
    exact ⟨digits, readChar_eq.mp hchar, h⟩
  · rintro ⟨digits, rfl, h⟩
    rw [readChar_eq.mpr rfl]
    exact h

theorem readV4_eq {text : List Char} {addr : Addr} : readV4 text = some (addr, []) ↔
    ∃ octets digits, readIpv4 text = some (octets, ':' :: digits) ∧ IsPort digits addr.port ∧
      addr.ip = .v4 octets := by
  have hread : readV4 text = (readIpv4 text).bind fun p =>
      (readPort p.2).bind fun q => some ({ ip := .v4 p.1, port := q.1 }, q.2) := rfl
  rw [hread]
  constructor
  · intro h
    obtain ⟨⟨octets, rest⟩, hip, h⟩ := Option.bind_eq_some_iff.mp h
    obtain ⟨⟨port, rest'⟩, hport, h⟩ := Option.bind_eq_some_iff.mp h
    obtain ⟨rfl, hnil⟩ := Prod.mk.inj (Option.some.inj h)
    dsimp only at hnil hport
    subst hnil
    obtain ⟨digits, rfl, hdigits⟩ := readPort_eq.mp hport
    exact ⟨octets, digits, hip, hdigits, rfl⟩
  · rintro ⟨octets, digits, hip, hdigits, haddr⟩
    rw [hip, Option.bind_some, readPort_eq.mpr ⟨digits, rfl, hdigits⟩, Option.bind_some, ← haddr]

theorem readV6_eq {text : List Char} {addr : Addr} : readV6 text = some (addr, []) ↔
    ∃ inner digits, text = '[' :: inner ∧
      readBracketed inner = some (addr.ip, ']' :: ':' :: digits) ∧ IsPort digits addr.port := by
  have hread : readV6 text = (readChar '[' text).bind fun o => (readBracketed o.2).bind fun p =>
      (readChar ']' p.2).bind fun q => (readPort q.2).bind fun r =>
        some ({ ip := p.1, port := r.1 }, r.2) := rfl
  rw [hread]
  constructor
  · intro h
    obtain ⟨⟨⟨⟩, inner⟩, hopen, h⟩ := Option.bind_eq_some_iff.mp h
    obtain ⟨⟨ip, behind⟩, hip, h⟩ := Option.bind_eq_some_iff.mp h
    obtain ⟨⟨⟨⟩, rest⟩, hclose, h⟩ := Option.bind_eq_some_iff.mp h
    obtain ⟨⟨port, rest'⟩, hport, h⟩ := Option.bind_eq_some_iff.mp h
    obtain ⟨rfl, hnil⟩ := Prod.mk.inj (Option.some.inj h)
    dsimp only at hnil hport hip hclose
    subst hnil
    obtain ⟨digits, rfl, hdigits⟩ := readPort_eq.mp hport
    rw [readChar_eq.mp hclose] at hip
    exact ⟨inner, digits, readChar_eq.mp hopen, hip, hdigits⟩
  · rintro ⟨inner, digits, rfl, hip, hdigits⟩
    rw [readChar_eq.mpr rfl, Option.bind_some, hip, Option.bind_some, readChar_eq.mpr rfl,
      Option.bind_some, readPort_eq.mpr ⟨digits, rfl, hdigits⟩]
    rfl

theorem parse_eq {text : List Char} {addr : Addr} : parse text = some addr ↔
    readV4 text = some (addr, []) ∨ readV4 text = none ∧ readV6 text = some (addr, []) := by
  have hread : (readV4 <|> readV6).run text = (readV4 text <|> readV6 text) := rfl
  rw [parse, hread]
  cases hfirst : readV4 text with
  | none =>
    rcases hsecond : readV6 text with _ | ⟨found, _ | ⟨c, rest⟩⟩ <;> simp
  | some p =>
    obtain ⟨found, _ | ⟨c, rest⟩⟩ := p <;> simp

/-- A bracket is not the front of an IPv4 address. -/
theorem readV4_bracket (text : List Char) : readV4 ('[' :: text) = none := by
  have hnumber : readNumber 10 (some 3) 255 false ('[' :: text) = none := by
    have htake : ('[' :: text).takeWhile (fun c => (digitOf 10 c).isSome) = [] := rfl
    rw [readNumber, htake]
    rfl
  have hread : readV4 ('[' :: text) = (((readNumber 10 (some 3) 255 false ('[' :: text)).bind fun p =>
      ((do
        let b ← readOctet 1
        let c ← readOctet 2
        let d ← readOctet 3
        return [p.1, b, c, d]) : Reader (List Nat)) p.2).bind fun p =>
      (readPort p.2).bind fun q => some ({ ip := .v4 p.1, port := q.1 }, q.2)) := rfl
  rw [hread, hnumber]
  rfl

theorem last_colon {front front' port digits : List Char} (hport : ':' ∉ port) (hdigits : ':' ∉ digits)
    (h : front ++ ':' :: port = front' ++ ':' :: digits) : front = front' ∧ port = digits := by
  rcases List.append_eq_append_iff.mp h with ⟨added, rfl, hrest⟩ | ⟨added, rfl, hrest⟩
  · rcases added with _ | ⟨c, added⟩
    · exact ⟨(List.append_nil _).symm, (List.cons.inj hrest).2⟩
    · exact absurd ((List.cons.inj hrest).2 ▸ List.mem_append_right _ List.mem_cons_self) hport
  · rcases added with _ | ⟨c, added⟩
    · exact ⟨List.append_nil _, (List.cons.inj hrest).2.symm⟩
    · exact absurd ((List.cons.inj hrest).2 ▸ List.mem_append_right _ List.mem_cons_self) hdigits

/-- The port is what stands behind the last colon. What stands before it is read as it is with any
    other port. -/
theorem parse_port {front port : List Char} {addr : Addr} (h : parse (front ++ ':' :: port) = some addr)
    (hport : ':' ∉ port) : IsPort port addr.port ∧ ∀ port' n, IsPort port' n →
      parse (front ++ ':' :: port') = some { addr with port := n } := by
  have hv4 : Stops ':' readIpv4 := stops_ipv4 (by decide) (by decide)
  rcases parse_eq.mp h with hread | ⟨-, hread⟩
  · obtain ⟨octets, digits, hip, hdigits, haddr⟩ := readV4_eq.mp hread
    obtain ⟨front', heq, -, hany⟩ := stopped_at hv4 hip
    obtain ⟨rfl, rfl⟩ := last_colon hport hdigits.notMem heq
    exact ⟨hdigits, fun port' n hport' => parse_eq.mpr (Or.inl (readV4_eq.mpr
      ⟨octets, port', hany port', hport', haddr⟩))⟩
  · obtain ⟨inner, digits, htext, hip, hdigits⟩ := readV6_eq.mp hread
    obtain ⟨front', rfl, -, hany⟩ := stopped_at stops_bracketed hip
    have heq : front ++ ':' :: port = ('[' :: front' ++ [']']) ++ ':' :: digits := by
      rw [htext]
      simp
    obtain ⟨rfl, rfl⟩ := last_colon hport hdigits.notMem heq
    refine ⟨hdigits, fun port' n hport' => parse_eq.mpr (Or.inr ⟨readV4_bracket _, readV6_eq.mpr
      ⟨front' ++ ']' :: ':' :: port', port', by simp, hany _, hport'⟩⟩)⟩

end SocketAddr
