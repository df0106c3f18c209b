import WebTransportEcho.Backend.StreamIds
import WebTransportEcho.Chunks

/-! The worker of a tokio-quiche connection, and the transport behind it. The loop queues its commands,
    and the worker takes them in order, calls `stream_send` once for each and logs what it returns: the
    rest of a chunk that was not sent, or that found no capacity, is offered to nobody. -/

namespace WebTransportEcho.TokioQuiche
open Backend

/-! ### `queue_stream_send` -/

/-- What `stream_send` returns. `fin` says that the end was sent too. -/
inductive SendResult where
  | ok (sent : Nat) (fin : Bool)
  | error
  deriving DecidableEq

def SendResult.sent : SendResult → Nat
  | .ok sent _ => sent
  | .error => 0

def SendResult.fin : SendResult → Bool
  | .ok _ fin => fin
  | .error => false

/-- Only what was asked is sent, and the end only behind all of it. -/
def SendResult.Fits (command : Command) (result : SendResult) : Prop :=
  result.sent ≤ command.data.length ∧
    (result.fin = true → command.fin = true ∧ result.sent = command.data.length)

instance (command : Command) (result : SendResult) : Decidable (result.Fits command) :=
  inferInstanceAs (Decidable (_ ∧ _))

/-- A call of `stream_send` and its result. -/
structure Call where
  command : Command
  result : SendResult
  fits : result.Fits command

/-- The loop, the commands that wait for the worker, and the calls that it made. Once the worker is
    gone, commands are dropped. -/
structure World where
  connection : Connection
  queue : List Command
  calls : List Call
  gone : Bool

inductive Act where
  | event (e : Event)
  | streamSend (result : SendResult)
  | workerGone

def World.step (w : World) : Act → Option World
  | .event e =>
    let connection := turn w.connection e
    let issued := connection.commands.drop w.connection.commands.length
    some { w with connection, queue := if w.gone then w.queue else w.queue ++ issued }
  | .streamSend result =>
    match w.gone, w.queue with
    | false, command :: queue =>
      if h : result.Fits command then
        some { w with queue, calls := w.calls ++ [⟨command, result, h⟩] }
      else none
    | _, _ => none
  | .workerGone => some { w with gone := true }

def newWorld : World where
  connection := newConnection
  queue := []
  calls := []
  gone := false

def World.run (acts : List Act) : Option World := acts.foldlM World.step newWorld

def Act.event? : Act → Option Event
  | .event e => some e
  | _ => none

/-- What came to the loop. -/
def events (acts : List Act) : List Event := acts.filterMap Act.event?

/-! ### Bidirectional data -/

def Event.bidiData (streamId : UInt64) : Event → Bytes
  | .streamData _ streamId' .bidi data _ => if streamId' = streamId then data else []
  | _ => []

/-- The data received on a bidirectional stream. -/
def bidiReceived (h : List Event) (streamId : UInt64) : Bytes := h.flatMap (Event.bidiData streamId)

/-- The data of the commands for a stream. -/
def commandData (commands : List Command) (streamId : UInt64) : Bytes :=
  (commands.filter fun command => decide (command.streamId = streamId)).flatMap Command.data

theorem commandData_append (commands issued : List Command) (streamId : UInt64) :
    commandData (commands ++ issued) streamId =
      commandData commands streamId ++ commandData issued streamId := by
  rw [commandData, List.filter_append, List.flatMap_append]
  rfl

theorem commandData_singleton (command : Command) (streamId : UInt64) :
    commandData [command] streamId = if command.streamId = streamId then command.data else [] := by
  by_cases h : command.streamId = streamId <;> simp [commandData, h]

/-- An event adds commands. Since echoes go to unidirectional streams, those for a bidirectional one
    carry the data that the event brings on it. -/
theorem handleEvent_commands (c : Connection) (e : Event) :
    ∃ issued, (handleEvent c e).commands = c.commands ++ issued ∧
      (isUnidirectional c.nextServerUniStreamId.toNat = true → ∀ streamId,
        isUnidirectional streamId.toNat = false → commandData issued streamId = e.bidiData streamId) := by
  cases e with
  | streamData sessionId streamId' direction data fin =>
    cases direction with
    | bidi => exact ⟨_, rfl, fun _ streamId _ => commandData_singleton _ streamId⟩
    | uni =>
      cases fin with
      | true =>
        refine ⟨_, rfl, fun huni streamId hbidi => ?_⟩
        rw [commandData_singleton, if_neg]
        · rfl
        · rintro rfl
          exact absurd huni (Bool.eq_false_iff.mp hbidi)
      | false => exact ⟨[], (List.append_nil _).symm, fun _ _ _ => rfl⟩
  | headers streamId' headers sent bodySent =>
    refine ⟨[], ?_, fun _ _ _ => rfl⟩
    rw [List.append_nil]
    exact (handleHeaders_spec c streamId' headers sent bodySent).1.commands
  | resetStream | streamClosed | connectionError | connectionShutdown | other =>
    exact ⟨[], (List.append_nil _).symm, fun _ _ _ => rfl⟩

theorem handledBy_commandData {streamId : UInt64} (hbidi : isUnidirectional streamId.toNat = false)
    (h : List Event) : commandData (handledBy h).commands streamId = bidiReceived h streamId := by
  induction h using List.reverseRecOn with
  | nil => rfl
  | append_singleton h e ih =>
    obtain ⟨issued, hcommands, hdata⟩ := handleEvent_commands (handledBy h) e
    have huni := (serverStream_kind (finished h).length).2
    rw [← (handledBy_numbered h).next] at huni
    rw [handledBy_snoc, hcommands, commandData_append, ih, hdata huni streamId hbidi, bidiReceived,
      bidiReceived, List.flatMap_append, List.flatMap_singleton]

theorem turn_commands (c : Connection) (e : Event) :
    ∃ issued, (turn c e).commands = c.commands ++ issued := by
  rw [turn]
  split_ifs
  · exact ⟨[], (List.append_nil _).symm⟩
  · obtain ⟨issued, hcommands, -⟩ := handleEvent_commands c e
    exact ⟨issued, hcommands⟩

/-! ### The queue -/

/-- The calls are for the first of the commands, and while the worker is there the others wait. -/
structure World.InTurn (w : World) : Prop where
  made : w.calls.map Call.command <+: w.connection.commands
  waiting : w.gone = false → w.calls.map Call.command ++ w.queue = w.connection.commands

theorem World.InTurn.step {w w' : World} {act : Act} (h : w.InTurn) (hstep : w.step act = some w') :
    w'.InTurn := by
  cases act with
  | event e =>
    cases hstep
    obtain ⟨issued, hcommands⟩ := turn_commands w.connection e
    refine ⟨?_, fun hgone => ?_⟩
    · rw [hcommands]
      exact h.made.trans (List.prefix_append _ _)
    · rw [hcommands, List.drop_left, if_neg (Bool.eq_false_iff.mp hgone), ← List.append_assoc,
        h.waiting hgone]
  | streamSend result =>
    rw [World.step] at hstep
    split at hstep
    · rename_i command queue hgone hqueue
      split_ifs at hstep with hfits
      cases hstep
      have hcommands : (w.calls ++ [Call.mk command result hfits]).map Call.command ++ queue =
          w.connection.commands := by
        rw [← h.waiting hgone, hqueue, List.map_append, List.append_assoc]
        rfl
      exact ⟨⟨queue, hcommands⟩, fun _ => hcommands⟩
    · cases hstep
  | workerGone =>
    cases hstep
    exact ⟨h.made, fun hgone => by cases hgone⟩

theorem World.step_connection {w w' : World} {act : Act} (hstep : w.step act = some w') :
    w'.connection = act.event?.elim w.connection (turn w.connection) := by
  cases act with
  | event e =>
    cases hstep
    rfl
  | streamSend result =>
    rw [World.step] at hstep
    split at hstep
    · split_ifs at hstep
      cases hstep
      rfl
    · cases hstep
  | workerGone =>
    cases hstep
    rfl

theorem events_snoc (acts : List Act) (act : Act) :
    events (acts ++ [act]) = events acts ++ act.event?.toList := by
  rw [events, List.filterMap_append, ← events]
  cases hevent : act.event? <;> simp [hevent]

/-- In every run the worker works through what the loop asked for. -/
theorem World.run_spec (acts : List Act) : ∀ {w : World}, World.run acts = some w →
    w.InTurn ∧ w.connection = serve (events acts) := by
  induction acts using List.reverseRecOn with
  | nil =>
    rintro w ⟨⟩
    exact ⟨⟨List.prefix_rfl, fun _ => rfl⟩, rfl⟩
  | append_singleton acts act ih =>
    intro w hrun
    rw [World.run, List.foldlM_append] at hrun
    obtain ⟨before, hbefore, hlast⟩ := Option.bind_eq_some_iff.mp hrun
    rw [List.foldlM_cons] at hlast
    obtain ⟨after, hstep, hnil⟩ := Option.bind_eq_some_iff.mp hlast
    cases hnil
    obtain ⟨hturn, hconnection⟩ := ih hbefore
    refine ⟨hturn.step hstep, ?_⟩
    rw [World.step_connection hstep, hconnection, events_snoc]
    cases act.event? with
    | none => rw [Option.elim_none, Option.toList_none, List.append_nil]
    | some e => rw [Option.elim_some, Option.toList_some, serve, serve, List.foldl_append, List.foldl_cons,
        List.foldl_nil]

/-! ### What the transport sends -/

def Call.offer (call : Call) : Chunks.Offer UInt8 where
  chunk := call.command.data
  taken := call.result.sent
  ended := call.result.fin
  bound := call.fits.1
  whole hfin := (call.fits.2 hfin).2

/-- The calls for a stream, as the transport saw them. -/
def World.sends (w : World) (streamId : UInt64) : List (Chunks.Offer UInt8) :=
  (w.calls.filter fun call => decide (call.command.streamId = streamId)).map Call.offer

/-- What is sent is the front of the data, with nothing left out before a byte or before the end. -/
structure Echoed (data : Bytes) (sends : List (Chunks.Offer UInt8)) : Prop where
  front : Chunks.received sends <+: data
  noGap : Chunks.NoGap 0 sends

theorem offered_sends (w : World) (streamId : UInt64) :
    Chunks.offered (w.sends streamId) = commandData (w.calls.map Call.command) streamId := by
  rw [Chunks.offered, World.sends, commandData, List.filter_map, List.flatMap_map, List.flatMap_map]
  rfl

/-- The data of a bidirectional stream is echoed exactly where the transport, once it has cut a chunk
    short, takes nothing more on that stream. -/
theorem bidiEchoed_iff (acts : List Act) (w : World) (hrun : World.run acts = some w) (streamId : UInt64)
    (hbidi : isUnidirectional streamId.toNat = false) :
    Echoed (bidiReceived (handled (events acts)) streamId) (w.sends streamId) ↔
      Chunks.CutLast (w.sends streamId) := by
  rw [← Chunks.noGap_iff 0]
  refine ⟨fun h => h.noGap, fun h => ⟨?_, h⟩⟩
  obtain ⟨hturn, hconnection⟩ := World.run_spec acts hrun
  have hcommands : w.connection.commands = (handledBy (handled (events acts))).commands := by
    rw [hconnection, (serve_handled (events acts)).echoes.commands]
  rw [← handledBy_commandData hbidi, ← hcommands]
  obtain ⟨rest, hrest⟩ := hturn.made
  rw [← hrest, commandData_append, ← offered_sends]
  exact (Chunks.received_of_cutLast ((Chunks.noGap_iff 0 _).mp h)).trans (List.prefix_append _ _)

/-- Two chunks that are sent whole, the first one before the second comes. -/
def fullWrites : List Act :=
  [.event (.streamData 0 4 .bidi [1, 2] false), .streamSend (.ok 2 false),
    .event (.streamData 0 4 .bidi [3] true), .streamSend (.ok 1 true)]

theorem fullWrites_echoed : ∃ w, World.run fullWrites = some w ∧ Chunks.received (w.sends 4) = [1, 2, 3] ∧
    Echoed (bidiReceived (handled (events fullWrites)) 4) (w.sends 4) := by
  refine ⟨_, rfl, rfl, (bidiEchoed_iff fullWrites _ rfl 4 rfl).mpr ?_⟩
  refine List.pairwise_of_forall_mem_list fun o ho _ _ hcut => absurd ?_ hcut.ne
  rcases List.mem_cons.mp ho with rfl | ho
  · rfl
  · rw [List.mem_singleton.mp ho]
    rfl

/-- A chunk that finds capacity for half of it, and a second one. -/
def shortWrite : List Act :=
  [.event (.streamData 0 4 .bidi [1, 2] false), .event (.streamData 0 4 .bidi [3] true),
    .streamSend (.ok 1 false), .streamSend (.ok 1 true)]

theorem shortWrite_not_echoed : ∃ w, World.run shortWrite = some w ∧
    bidiReceived (handled (events shortWrite)) 4 = [1, 2, 3] ∧
    Chunks.received (w.sends 4) = [1, 3] ∧
    ¬ Echoed (bidiReceived (handled (events shortWrite)) 4) (w.sends 4) := by
  refine ⟨_, rfl, rfl, rfl, fun h => ?_⟩
  have hfront := h.front
  revert hfront
  decide

end WebTransportEcho.TokioQuiche
