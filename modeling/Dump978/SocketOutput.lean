import Dump978.RawFormat
import Dump978.Adsb

namespace Dump978

/-!
# Socket output — `SocketOutput::Write` and `Flush` (`socket_output.cc`, `socket_output.h`)

A `SocketOutput` serves one accepted connection. `Write(messages)` dispatches a handler to the
connection's strand; on an open socket the handler appends the text of `InternalWrite` to
`outbuf_` and calls `Flush`. `Flush` does nothing while `flush_pending_` is set; otherwise it
moves all of `outbuf_` into a new buffer, sets `flush_pending_`, and starts an `async_write`
of that buffer, whose completion handler clears `flush_pending_` and flushes again (or, on an
error, closes the socket). `ReadAndDiscard` keeps a read in flight and closes the socket when
it fails.

Everything here runs on the strand, so a run is a sequence of handlers (`StrandEvent`): the
handler of a `Write`, the completion of the oldest `async_write` in flight, and the completion
of the read. An event whose operation is not in flight does not occur and leaves the state
as it is. `InternalWrite` is a parameter: `RawOutput.internalWrite` and
`JsonOutput.internalWrite` are the two overrides. The state keeps two histories no code
keeps: every buffer handed to `async_write`, and the text appended to `outbuf_`. The text
written is read off the run itself (`Connection.writtenText`: the `InternalWrite` text of each
`Write` handler that finds the socket open), and `Connection.run_produced` ties the second
history to it.

Main results:

* `Connection.Inv.step` — after every handler at most one `async_write` is in flight,
  `flush_pending_` is set exactly while one is, and the buffers handed so far followed by
  `outbuf_` are exactly the text written;
* `Connection.Drained.step` — unless a write fails, `outbuf_` is empty whenever no write is
  in flight (`Connection.drained_of_open_step`: on an open connection, whatever fails);
* `write_flush_in_order` — so over every run without a failed write, every byte of the
  run's `InternalWrite`s is handed to `async_write` once and in order, and none is left
  behind;
* `RawOutput.internalWrite_spec` — `RawOutput::InternalWrite` throws exactly on a batch with a
  message that is not a frame, so a `RawOutput` fed frames never throws (`RawOutput.run_ok`).
-/

/-- `SharedMessageVector`: the batch one `Write` gets. -/
abbrev MessageVector := List RawMessage

/-- The state of one connection: the fields of `SocketOutput` the handlers use, the socket's
operations in flight, and the two histories. -/
structure Connection where
  /-- `outbuf_.str()`. -/
  outbuf : List Char
  /-- `flush_pending_`. -/
  flushPending : Bool
  /-- `socket_.is_open()`. -/
  isOpen : Bool
  /-- The read of `ReadAndDiscard` is in flight. -/
  reading : Bool
  /-- The buffers of the `async_write`s in flight, oldest first. -/
  outstanding : List (List Char)
  /-- Every buffer handed to `async_write`, in order. -/
  handed : List (List Char)
  /-- The text of every `InternalWrite`, in order. -/
  produced : List Char
  deriving DecidableEq, Repr

/-- A connection just accepted and started: open, nothing buffered, the first read in
flight. -/
def Connection.init : Connection := ⟨[], false, true, true, [], [], []⟩

/-- `Close()`: `socket_.close()`. The close notifier removes the client from the dispatcher,
which is not part of this state. -/
def Connection.close (c : Connection) : Connection := { c with isOpen := false }

/-- `Buf() << text`: what one `InternalWrite` appends to `outbuf_`. -/
def Connection.append (c : Connection) (text : List Char) : Connection :=
  { c with outbuf := c.outbuf ++ text, produced := c.produced ++ text }

/-- `Flush()`. -/
def Connection.flush (c : Connection) : Connection :=
  if c.flushPending then c
  else
    let writebuf := c.outbuf
    if writebuf.isEmpty then c
    else
      { c with
        flushPending := true
        outbuf := []
        outstanding := c.outstanding ++ [writebuf]
        handed := c.handed ++ [writebuf] }

/-- The handler `Write(messages)` dispatches to the strand: if the socket is open,
`InternalWrite(messages)` and `Flush()`. An exception of `InternalWrite` leaves the handler
and `io_service::run`. -/
def Connection.write (internalWrite : MessageVector → Except StdException (List Char))
    (c : Connection) (messages : MessageVector) : Except StdException Connection :=
  if c.isOpen then do
    let text ← internalWrite messages
    pure (c.append text).flush
  else pure c

/-- The completion handler of the oldest `async_write` in flight, `ok` false for an error
code: `flush_pending_ = false`, then `Flush()`, or `HandleError`, which closes the socket. -/
def Connection.writeComplete (c : Connection) (ok : Bool) : Connection :=
  match c.outstanding with
  | [] => c
  | _ :: rest =>
    let c := { c with outstanding := rest, flushPending := false }
    if ok then c.flush else c.close

/-- The completion handler of the read: `ReadAndDiscard()` again, or `HandleError`. -/
def Connection.readComplete (c : Connection) (ok : Bool) : Connection :=
  if c.reading then
    if ok then c else { c with reading := false }.close
  else c

/-- The handlers that run on the strand. -/
inductive StrandEvent
  /-- The handler of `Write(messages)`. -/
  | write (messages : MessageVector)
  /-- The completion of the oldest `async_write` in flight. -/
  | writeComplete (ok : Bool)
  /-- The completion of the read of `ReadAndDiscard`. -/
  | readComplete (ok : Bool)

/-- One handler. -/
def Connection.step (internalWrite : MessageVector → Except StdException (List Char))
    (c : Connection) : StrandEvent → Except StdException Connection
  | .write messages => c.write internalWrite messages
  | .writeComplete ok => pure (c.writeComplete ok)
  | .readComplete ok => pure (c.readComplete ok)

/-- A run of handlers, stopped by the first exception. -/
def Connection.run (internalWrite : MessageVector → Except StdException (List Char))
    (c : Connection) : List StrandEvent → Except StdException Connection
  | [] => pure c
  | e :: events => do (← c.step internalWrite e).run internalWrite events

/-- The text a handler's `InternalWrite` produces: that of a `Write` that finds the socket open,
none for the other handlers. -/
def Connection.eventText (internalWrite : MessageVector → Except StdException (List Char))
    (c : Connection) : StrandEvent → List Char
  | .write messages =>
    match c.isOpen, internalWrite messages with
    | true, .ok text => text
    | _, _ => []
  | _ => []

/-- The text written over a run: the `InternalWrite` text of each `Write` handler, in order,
up to the first exception. -/
def Connection.writtenText (internalWrite : MessageVector → Except StdException (List Char))
    (c : Connection) : List StrandEvent → List Char
  | [] => []
  | e :: events =>
    match c.step internalWrite e with
    | .ok c₁ => c.eventText internalWrite e ++ c₁.writtenText internalWrite events
    | .error _ => []

/-! ### The two overrides of `InternalWrite` -/

/-- `RawOutput::InternalWrite`: each message in the raw format, `'\n'` after each. -/
def RawOutput.internalWrite (ft : FloatText) (messages : MessageVector) :
    Except StdException (List Char) :=
  List.flatten <$> messages.mapM fun message => (· ++ ['\n']) <$> message.format ft

/-- `JsonOutput::InternalWrite`: each downlink message as the JSON of its `AdsbMessage`,
`'\n'` after each. `toJson` is the text `Buf() << AdsbMessage(message).ToJson()` writes. -/
def JsonOutput.internalWrite (toJson : AdsbMessage → List Char) (messages : MessageVector) :
    Except StdException (List Char) :=
  List.flatten <$>
    (messages.filter fun message =>
      message.type = .downlinkShort || message.type = .downlinkLong).mapM
      fun message => (toJson · ++ ['\n']) <$> AdsbMessage.ofRaw message

/-! ### What a handler can do -/

section Handlers

variable {internalWrite : MessageVector → Except StdException (List Char)} {c c' : Connection}

/-- What `Flush()` does: nothing while a write is in flight or nothing is buffered, else it
hands the whole buffer to a new `async_write`. -/
theorem Connection.flush_cases (c : Connection) :
    (c.flushPending = true ∧ c.flush = c) ∨ (c.outbuf = [] ∧ c.flush = c) ∨
    (c.flushPending = false ∧ c.outbuf ≠ [] ∧
      c.flush =
        { c with
          flushPending := true
          outbuf := []
          outstanding := c.outstanding ++ [c.outbuf]
          handed := c.handed ++ [c.outbuf] }) := by
  unfold Connection.flush
  cases hp : c.flushPending
  · cases hb : c.outbuf with
    | nil => exact .inr (.inl ⟨rfl, by simp [hb]⟩)
    | cons x xs => exact .inr (.inr ⟨rfl, by simp, by simp [hb]⟩)
  · exact .inl ⟨rfl, by simp⟩

/-- What one handler can do: nothing; close the socket after a failed read; append the text
of an `InternalWrite` to an open connection and flush; or retire the oldest write in flight,
then flush, or close after an error. -/
theorem Connection.step_cases {e : StrandEvent} (h : c.step internalWrite e = .ok c') :
    c' = c ∨ c' = { c with reading := false }.close ∨
      (∃ text, c.isOpen = true ∧ c' = (c.append text).flush) ∨
      ∃ b rest, c.outstanding = b :: rest ∧
        (c' = { c with outstanding := rest, flushPending := false }.flush ∨
          e = .writeComplete false ∧ c' = { c with outstanding := rest, flushPending := false }.close) := by
  cases e with
  | write messages =>
    simp only [Connection.step, Connection.write] at h
    split at h
    · cases hw : internalWrite messages with
      | error err => rw [hw] at h; cases h
      | ok text =>
        rw [hw] at h
        exact .inr (.inr (.inl ⟨text, by assumption, (Except.ok.inj h).symm⟩))
    · exact .inl (Except.ok.inj h).symm
  | writeComplete ok =>
    cases h
    unfold Connection.writeComplete
    cases hc : c.outstanding with
    | nil => exact .inl rfl
    | cons b rest =>
      refine .inr (.inr (.inr ⟨b, rest, rfl, ?_⟩))
      cases ok
      · exact .inr ⟨rfl, rfl⟩
      · exact .inl rfl
  | readComplete ok =>
    cases h
    unfold Connection.readComplete
    split
    · split
      · exact .inl rfl
      · exact .inr (.inl rfl)
    · exact .inl rfl

end Handlers

/-! ### Invariants -/

/-- What holds after every handler: at most one `async_write` in flight, `flush_pending_` set
exactly while one is, and the buffers handed so far, then `outbuf_`, are the text written. -/
structure Connection.Inv (c : Connection) : Prop where
  outstanding_le_one : c.outstanding.length ≤ 1
  flushPending_iff : c.flushPending = true ↔ c.outstanding ≠ []
  handed_append_outbuf : c.handed.flatten ++ c.outbuf = c.produced

/-- Nothing is left in `outbuf_` while no write is in flight. -/
def Connection.Drained (c : Connection) : Prop := c.outstanding = [] → c.outbuf = []

section Invariants

variable {internalWrite : MessageVector → Except StdException (List Char)} {c c' : Connection}

theorem Connection.Inv.init : Connection.init.Inv := ⟨by decide, by decide, rfl⟩

theorem Connection.drained_init : Connection.init.Drained := fun _ => rfl

theorem Connection.Inv.flush (h : c.Inv) : c.flush.Inv := by
  rcases c.flush_cases with ⟨-, hf⟩ | ⟨-, hf⟩ | ⟨hp, -, hf⟩
  · rwa [hf]
  · rwa [hf]
  have hnil : c.outstanding = [] := by simpa [hp] using h.flushPending_iff
  rw [hf]
  refine ⟨by simp [hnil], by simp [hnil], ?_⟩
  simp only [List.flatten_append, List.flatten_singleton, List.append_nil]
  exact h.handed_append_outbuf

/-- After `Flush()`, from a state whose `flush_pending_` says whether a write is in flight,
nothing is left behind. -/
theorem Connection.drained_flush (h : c.flushPending = true ↔ c.outstanding ≠ []) :
    c.flush.Drained := by
  rcases c.flush_cases with ⟨hp, hf⟩ | ⟨hb, hf⟩ | ⟨-, -, hf⟩ <;> rw [hf] <;> intro hnil
  · exact absurd hnil (h.mp hp)
  · exact hb
  · simp at hnil

theorem Connection.Inv.append (h : c.Inv) (text : List Char) : (c.append text).Inv :=
  ⟨h.outstanding_le_one, h.flushPending_iff, by
    simp only [Connection.append, ← List.append_assoc, h.handed_append_outbuf]⟩

/-- Retiring the only write in flight. -/
theorem Connection.Inv.retire (h : c.Inv) {b : List Char} {rest : List (List Char)}
    (hc : c.outstanding = b :: rest) :
    { c with outstanding := rest, flushPending := false }.Inv := by
  have hrest : rest = [] := by
    have := h.outstanding_le_one
    rw [hc, List.length_cons] at this
    exact List.eq_nil_of_length_eq_zero (by omega)
  exact ⟨by simp [hrest], by simp [hrest], h.handed_append_outbuf⟩

/-- **Every handler keeps the invariant.** -/
theorem Connection.Inv.step {e : StrandEvent} (h : c.Inv) (hs : c.step internalWrite e = .ok c') :
    c'.Inv := by
  rcases Connection.step_cases hs with rfl | rfl | ⟨text, -, rfl⟩ | ⟨b, rest, hc, rfl | ⟨-, rfl⟩⟩
  · exact h
  · exact ⟨h.outstanding_le_one, h.flushPending_iff, h.handed_append_outbuf⟩
  · exact (h.append text).flush
  · exact (h.retire hc).flush
  · have := h.retire hc
    exact ⟨this.outstanding_le_one, this.flushPending_iff, this.handed_append_outbuf⟩

/-- **Unless a write fails, nothing is left behind** while no write is in flight. -/
theorem Connection.Drained.step {e : StrandEvent} (h : c.Inv) (hd : c.Drained)
    (he : e ≠ .writeComplete false) (hs : c.step internalWrite e = .ok c') : c'.Drained := by
  rcases Connection.step_cases hs with rfl | rfl | ⟨text, -, rfl⟩ | ⟨b, rest, hc, rfl | ⟨rfl, -⟩⟩
  · exact hd
  · exact hd
  · exact Connection.drained_flush (h.append text).flushPending_iff
  · exact Connection.drained_flush (h.retire hc).flushPending_iff
  · exact absurd rfl he

/-- On an open connection nothing is left behind while no write is in flight, whatever
fails: a failed write closes the socket. -/
theorem Connection.drained_of_open_step {e : StrandEvent} (h : c.Inv)
    (hd : c.isOpen = true → c.Drained) (hs : c.step internalWrite e = .ok c') :
    c'.isOpen = true → c'.Drained := by
  intro hopen
  rcases Connection.step_cases hs with rfl | rfl | ⟨text, -, rfl⟩ | ⟨b, rest, hc, rfl | ⟨-, rfl⟩⟩
  · exact hd hopen
  · cases hopen
  · exact Connection.drained_flush (h.append text).flushPending_iff
  · exact Connection.drained_flush (h.retire hc).flushPending_iff
  · cases hopen

end Invariants

/-! ### Runs -/

section Runs

variable {internalWrite : MessageVector → Except StdException (List Char)} {c c' : Connection}

theorem Connection.run_cons_eq_ok {e : StrandEvent} {events : List StrandEvent}
    (h : c.run internalWrite (e :: events) = .ok c') :
    ∃ c₁, c.step internalWrite e = .ok c₁ ∧ c₁.run internalWrite events = .ok c' := by
  simp only [Connection.run] at h
  cases hs : c.step internalWrite e with
  | error err => rw [hs] at h; cases h
  | ok c₁ => rw [hs] at h; exact ⟨c₁, rfl, h⟩

/-- A property that every allowed handler keeps holds after every run of allowed handlers. -/
theorem Connection.run_induction (P : Connection → Prop) (allowed : StrandEvent → Prop)
    (hstep : ∀ {c c' : Connection} {e : StrandEvent}, allowed e → P c →
      c.step internalWrite e = .ok c' → P c')
    {events : List StrandEvent} (hallowed : ∀ e ∈ events, allowed e) (hc : P c)
    (hrun : c.run internalWrite events = .ok c') : P c' := by
  induction events generalizing c with
  | nil => cases hrun; exact hc
  | cons e events ih =>
    obtain ⟨c₁, hs, hr⟩ := Connection.run_cons_eq_ok hrun
    exact ih (fun e he => hallowed e (List.mem_cons_of_mem _ he))
      (hstep (hallowed e (List.mem_cons_self _ _)) hc hs) hr

/-- Every run from the constructor keeps the invariant, and leaves nothing behind on an open
connection while no write is in flight. -/
theorem Connection.inv_run {events : List StrandEvent}
    (hrun : Connection.init.run internalWrite events = .ok c) :
    c.Inv ∧ (c.isOpen = true → c.Drained) :=
  Connection.run_induction (fun c => c.Inv ∧ (c.isOpen = true → c.Drained)) (fun _ => True)
    (fun _ h hs => ⟨h.1.step hs, Connection.drained_of_open_step h.1 h.2 hs⟩)
    (fun _ _ => trivial) ⟨.init, fun _ => Connection.drained_init⟩ hrun

theorem Connection.flush_produced (c : Connection) : c.flush.produced = c.produced := by
  rcases c.flush_cases with ⟨-, hf⟩ | ⟨-, hf⟩ | ⟨-, -, hf⟩ <;> rw [hf]

/-- The text a handler appends to the history is that of its `InternalWrite`. -/
theorem Connection.step_produced {e : StrandEvent} (hs : c.step internalWrite e = .ok c') :
    c'.produced = c.produced ++ c.eventText internalWrite e := by
  cases e with
  | write messages =>
    simp only [Connection.step, Connection.write] at hs
    by_cases hopen : c.isOpen = true
    · rw [if_pos hopen] at hs
      cases hw : internalWrite messages <;> rw [hw] at hs <;> cases hs
      simp only [Connection.eventText, hopen, hw, Connection.flush_produced, Connection.append]
    · rw [if_neg hopen] at hs
      cases hs
      simp only [Connection.eventText, Bool.eq_false_iff.2 hopen, List.append_nil]
  | writeComplete ok =>
    cases hs
    unfold Connection.writeComplete
    split
    · simp [Connection.eventText]
    · split <;> simp [Connection.eventText, Connection.flush_produced, Connection.close]
  | readComplete ok =>
    cases hs
    unfold Connection.readComplete
    split
    · split <;> simp [Connection.eventText, Connection.close]
    · simp [Connection.eventText]

/-- Over a run, the history grows by the text of the run's `Write` handlers. -/
theorem Connection.run_produced {events : List StrandEvent}
    (hrun : c.run internalWrite events = .ok c') :
    c'.produced = c.produced ++ c.writtenText internalWrite events := by
  induction events generalizing c with
  | nil => cases hrun; simp [Connection.writtenText]
  | cons e events ih =>
    obtain ⟨c₁, hs, hr⟩ := Connection.run_cons_eq_ok hrun
    rw [ih hr, Connection.step_produced hs, Connection.writtenText, hs, List.append_assoc]

/-- **Writes are handed to the socket once, in order, and none is lost.** Over every run from
the constructor in which no `async_write` fails: at most one `async_write` is in flight; the
buffers handed to `async_write`, concatenated, are the text of the `InternalWrite`s of the
run's `Write` handlers, in order, with what is still in `outbuf_` after it, so a prefix of it;
and when no write is in flight, `outbuf_` is empty and every byte written has been handed. -/
theorem write_flush_in_order (internalWrite : MessageVector → Except StdException (List Char))
    (events : List StrandEvent) (hok : StrandEvent.writeComplete false ∉ events) {c : Connection}
    (hrun : Connection.init.run internalWrite events = .ok c) :
    let written := Connection.init.writtenText internalWrite events
    c.outstanding.length ≤ 1 ∧ c.handed.flatten ++ c.outbuf = written ∧
      c.handed.flatten <+: written ∧
      (c.outstanding = [] → c.outbuf = [] ∧ c.handed.flatten = written) := by
  obtain ⟨h, hd⟩ := Connection.run_induction (fun c => c.Inv ∧ c.Drained)
    (· ≠ .writeComplete false) (fun he h hs => ⟨h.1.step hs, h.2.step h.1 he hs⟩)
    (fun e he heq => hok (heq ▸ he)) ⟨.init, Connection.drained_init⟩ hrun
  have hsum : c.handed.flatten ++ c.outbuf = Connection.init.writtenText internalWrite events :=
    h.handed_append_outbuf.trans (Connection.run_produced hrun)
  refine ⟨h.outstanding_le_one, hsum, hsum ▸ List.prefix_append _ _, fun hnil => ⟨hd hnil, ?_⟩⟩
  rw [← hsum, hd hnil, List.append_nil]

/-- Two writes, the second while the first is in flight: its text goes out with the next
`async_write`. -/
theorem write_flush_in_order_overlap :
    let internalWrite : MessageVector → Except StdException (List Char) := fun _ => pure ['x']
    let events := [StrandEvent.write [], .write [], .writeComplete true]
    let c : Connection := ⟨[], true, true, true, [['x']], [['x'], ['x']], ['x', 'x']⟩
    let written := Connection.init.writtenText internalWrite events
    StrandEvent.writeComplete false ∉ events ∧ Connection.init.run internalWrite events = .ok c ∧
      (c.outstanding.length ≤ 1 ∧ c.handed.flatten ++ c.outbuf = written ∧
        c.handed.flatten <+: written ∧
        (c.outstanding = [] → c.outbuf = [] ∧ c.handed.flatten = written)) := by
  intro internalWrite events c written
  have hok : StrandEvent.writeComplete false ∉ events := by simp [events]
  have hrun : Connection.init.run internalWrite events = .ok c := rfl
  exact ⟨hok, hrun, write_flush_in_order internalWrite events hok hrun⟩

/-- A run returns unless some `InternalWrite` it calls throws. -/
theorem Connection.run_ok {events : List StrandEvent}
    (h : ∀ messages, .write messages ∈ events → ∃ text, internalWrite messages = .ok text) :
    ∃ c', c.run internalWrite events = .ok c' := by
  induction events generalizing c with
  | nil => exact ⟨c, rfl⟩
  | cons e events ih =>
    have hrest : ∀ c₁ : Connection, ∃ c', c₁.run internalWrite events = .ok c' :=
      fun _ => ih fun messages hm => h messages (List.mem_cons_of_mem _ hm)
    cases e with
    | write messages =>
      obtain ⟨text, ht⟩ := h messages (List.mem_cons_self _ _)
      by_cases hopen : c.isOpen = true
      · obtain ⟨c', hc'⟩ := hrest ((c.append text).flush)
        refine ⟨c', ?_⟩
        simp only [Connection.run, Connection.step, Connection.write, hopen, ht, if_true]
        exact hc'
      · obtain ⟨c', hc'⟩ := hrest c
        refine ⟨c', ?_⟩
        simp only [Connection.run, Connection.step, Connection.write, hopen, if_false]
        exact hc'
    | writeComplete ok => exact hrest _
    | readComplete ok => exact hrest _

end Runs

/-! ### `RawOutput` -/

section Raw

variable (ft : FloatText)

/-- A frame: the message types `operator<<` writes. -/
def IsFrame (m : RawMessage) : Prop :=
  m.type = .downlinkShort ∨ m.type = .downlinkLong ∨ m.type = .uplink

instance (m : RawMessage) : Decidable (IsFrame m) := inferInstanceAs (Decidable (_ ∨ _))

theorem RawMessage.format_of_isFrame {m : RawMessage} (h : IsFrame m) :
    ∃ line, m.format ft = .ok line := by
  rcases h with h | h | h <;> exact ⟨_, by simp only [RawMessage.format, h]; rfl⟩

theorem RawMessage.format_of_not_isFrame {m : RawMessage} (h : ¬ IsFrame m) :
    m.format ft = .error (.logicError "unexpected message type") := by
  unfold IsFrame at h
  cases hm : m.type <;> simp only [hm, reduceCtorEq, or_self, or_false, false_or,
    not_true_eq_false] at h <;> simp only [RawMessage.format, hm] <;> rfl

/-- **`RawOutput::InternalWrite` throws exactly on a batch with a message that is not a
frame**, and then throws `logic_error("unexpected message type")`. -/
theorem RawOutput.internalWrite_spec (messages : MessageVector) :
    ((∀ m ∈ messages, IsFrame m) → ∃ text, RawOutput.internalWrite ft messages = .ok text) ∧
    ((∃ m ∈ messages, ¬ IsFrame m) →
      RawOutput.internalWrite ft messages = .error (.logicError "unexpected message type")) := by
  induction messages with
  | nil => exact ⟨fun _ => ⟨[], rfl⟩, fun ⟨_, hm, _⟩ => absurd hm (List.not_mem_nil _)⟩
  | cons m ms ih =>
    unfold RawOutput.internalWrite at ih ⊢
    refine ⟨fun h => ?_, fun ⟨m', hm', hnot⟩ => ?_⟩
    · obtain ⟨line, hl⟩ := m.format_of_isFrame ft (h m (List.mem_cons_self _ _))
      obtain ⟨text, ht⟩ := ih.1 fun m' hm' => h m' (List.mem_cons_of_mem _ hm')
      cases hr : ms.mapM fun message => (· ++ ['\n']) <$> message.format ft with
      | error err => rw [hr] at ht; cases ht
      | ok lines => exact ⟨_, by simp only [List.mapM_cons, hl, hr]; rfl⟩
    · by_cases hf : IsFrame m
      · obtain ⟨line, hl⟩ := m.format_of_isFrame ft hf
        have hm'' : m' ∈ ms := (List.mem_cons.mp hm').resolve_left fun h => hnot (h ▸ hf)
        have hrest := ih.2 ⟨m', hm'', hnot⟩
        cases hr : ms.mapM fun message => (· ++ ['\n']) <$> message.format ft with
        | error err =>
          rw [hr] at hrest
          cases hrest
          simp only [List.mapM_cons, hl, hr]; rfl
        | ok lines => rw [hr] at hrest; cases hrest
      · simp only [List.mapM_cons, m.format_of_not_isFrame ft hf]; rfl

/-- A `RawOutput` whose `Write`s get only frames never throws: every run returns. -/
theorem RawOutput.run_ok {c : Connection} {events : List StrandEvent}
    (h : ∀ messages, .write messages ∈ events → ∀ m ∈ messages, IsFrame m) :
    ∃ c', c.run (RawOutput.internalWrite ft) events = .ok c' :=
  Connection.run_ok fun messages hm => (RawOutput.internalWrite_spec ft messages).1 (h messages hm)

end Raw

end Dump978
