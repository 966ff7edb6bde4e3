import Dump978.RawFormat

namespace Dump978

/-!
# The raw TCP input — `RawInput::ScheduleRead`, `ParseBuffer` and `HandleError`
(`socket_input.cc`)

`RawInput` reads raw lines from a TCP connection into an 8192-byte buffer `readbuf_`, of which
the first `used_` bytes are data. After each read `ParseBuffer` parses every complete
(`'\n'`-terminated) line, dispatches the messages and moves the bytes after the last `'\n'`
to the front. A line that does not parse makes it call `HandleError`, which closes the
socket and, with a positive reconnect interval, arms the timer that starts a new connection.

The asynchronous operations are events of a state machine (`RawInputEvent`): the completion
of the connect that `Start` begins, of a read, of the reconnect timer, and `Stop`. An event
whose operation is not in flight does not occur and leaves the state as it is. The history
of `DispatchMessages` and of the error handler is kept in the state.

Main results:

* `parseBufferLoop_eq` — the loop of `ParseBuffer` parses the stream's complete lines in
  order and fails exactly when one of them does not parse;
* `run_reads` — on one connection, reads of any sizes that fit the free space dispatch
  `ParseLine` of every complete line once, in order, and keep the bytes after the last
  `'\n'` at the front of the buffer;
* `run_malformed_read` — a buffer that starts with a line that does not parse is never cleared:
  `HandleError` keeps `used_`, so every later connection parses those bytes again.
-/

/-- The error codes the modelled code passes to `HandleError`. -/
inductive ErrorCode
  | operationAborted
  | noBufferSpace
  | protocolError
  | socketError (code : Nat)
  deriving DecidableEq, Repr

/-- `readbuf_.resize(8192)`. -/
def readbufSize : Nat := 8192

/-- The state of a `RawInput`: the socket, the operations in flight, the buffer, and the
history of what it handed on. -/
structure RawInput where
  /-- `reconnect_interval_` in milliseconds. -/
  reconnectInterval : Nat
  /-- `socket_.is_open()`. -/
  socketOpen : Bool
  /-- A resolve and connect begun by `Start` is in flight. -/
  connecting : Bool
  /-- An `async_read_some` is in flight. -/
  readPending : Bool
  /-- `reconnect_timer_` is waiting. -/
  timerArmed : Bool
  readbuf : List Char
  used : Nat
  /-- Every `DispatchMessages` call, in order. -/
  dispatched : List (List RawMessage)
  /-- Every call of the error handler, in order. -/
  reported : List ErrorCode

/-- A `RawInput` just created and started: the buffer is empty and `Start` has begun to
resolve and connect. -/
def RawInput.init (reconnectInterval : Nat) : RawInput :=
  ⟨reconnectInterval, false, true, false, false, List.replicate readbufSize '\x00', 0, [], []⟩

/-- `HandleError(ec)`. -/
def RawInput.handleError (s : RawInput) (ec : ErrorCode) : RawInput :=
  if ec = .operationAborted then s
  else
    { s with
      socketOpen := false
      timerArmed := s.timerArmed || decide (0 < s.reconnectInterval)
      reported := s.reported ++ [ec] }

/-- `ScheduleRead()`: nothing on a closed socket, `no_buffer_space` on a full buffer, else a
read into the free space. -/
def RawInput.scheduleRead (s : RawInput) : RawInput :=
  if !s.socketOpen then s
  else if s.used ≥ s.readbuf.length then s.handleError .noBufferSpace
  else { s with readPending := true }

/-- The loop of `ParseBuffer` from `sol` to the end of the data: the messages of the
complete lines and the bytes after the last `'\n'`, or `none` when a line does not parse
(`HandleError(protocol_error); return`). -/
def parseBufferLoop (ft : FloatText) (messages : List RawMessage) (sol : List Char) :
    Option (List RawMessage × List Char) :=
  match sol with
  | [] => some (messages, [])
  | c :: cs =>
    match (c :: cs).indexOf? '\n' with
    | none => some (messages, c :: cs)
    | some eol =>
      match parseLine ft ((c :: cs).take eol) with
      | none => none
      | some m => parseBufferLoop ft (messages ++ [m]) ((c :: cs).drop (eol + 1))
termination_by sol.length
decreasing_by
  simp only [List.length_drop, List.length_cons]
  omega

/-- `ParseBuffer()`. The bytes left are moved to the front when a line was consumed
(`sol != readbuf_.begin()`); the messages are dispatched when there are any. -/
def RawInput.parseBuffer (ft : FloatText) (s : RawInput) : RawInput :=
  match parseBufferLoop ft [] (s.readbuf.take s.used) with
  | none => s.handleError .protocolError
  | some (messages, rest) =>
    let s := if rest.length ≠ s.used then
        { s with readbuf := copyInto s.readbuf 0 rest, used := rest.length }
      else s
    if messages.isEmpty then s else { s with dispatched := s.dispatched ++ [messages] }

/-- The completions the state machine reacts to. -/
inductive RawInputEvent
  /-- `async_connect` succeeded (`ScheduleRead`). -/
  | connected
  /-- The resolve failed, or the last endpoint did (`HandleError`). -/
  | connectFailed (ec : ErrorCode)
  /-- `async_read_some` delivered `data` (`used_ += len; ParseBuffer(); ScheduleRead()`). -/
  | readComplete (data : List Char)
  /-- `async_read_some` failed (`HandleError`). -/
  | readFailed (ec : ErrorCode)
  /-- The reconnect timer fired (`Start`). -/
  | timerExpired
  /-- `Stop()`: cancel the timer and close the socket; what was in flight is aborted. -/
  | stop

/-- One event. An event whose operation is not in flight, or a read larger than the free
space it was given, does not occur. -/
def RawInput.step (ft : FloatText) (s : RawInput) : RawInputEvent → RawInput
  | .connected =>
    if s.connecting then { s with connecting := false, socketOpen := true }.scheduleRead else s
  | .connectFailed ec =>
    if s.connecting then { s with connecting := false }.handleError ec else s
  | .readComplete data =>
    if s.readPending ∧ data.length ≤ s.readbuf.length - s.used then
      ({ s with
          readPending := false
          readbuf := copyInto s.readbuf s.used data
          used := s.used + data.length }.parseBuffer ft).scheduleRead
    else s
  | .readFailed ec => if s.readPending then { s with readPending := false }.handleError ec else s
  | .timerExpired => if s.timerArmed then { s with timerArmed := false, connecting := true } else s
  | .stop =>
    { s with timerArmed := false, socketOpen := false, readPending := false, connecting := false }

/-- A run of events. -/
def RawInput.run (ft : FloatText) (s : RawInput) (events : List RawInputEvent) : RawInput :=
  events.foldl (RawInput.step ft) s

/-! ### Lines of a stream -/

/-- The `'\n'`-terminated lines of a stream (without their `'\n'`) and the bytes after the
last `'\n'`. -/
def splitLines : List Char → List (List Char) × List Char
  | [] => ([], [])
  | c :: cs =>
    if c = '\n' then ([] :: (splitLines cs).1, (splitLines cs).2)
    else match (splitLines cs).1 with
      | [] => ([], c :: (splitLines cs).2)
      | l :: ls => ((c :: l) :: ls, (splitLines cs).2)

theorem splitLines_of_not_mem {l : List Char} (h : '\n' ∉ l) : splitLines l = ([], l) := by
  induction l with
  | nil => rfl
  | cons c cs ih =>
    have hc : c ≠ '\n' := fun hc => h (hc ▸ List.mem_cons_self _ _)
    rw [splitLines, if_neg hc, ih fun hn => h (List.mem_cons_of_mem _ hn)]

/-- A line without `'\n'` followed by `'\n'` is the first line. -/
theorem splitLines_line {l : List Char} (h : '\n' ∉ l) (rest : List Char) :
    splitLines (l ++ '\n' :: rest) = (l :: (splitLines rest).1, (splitLines rest).2) := by
  induction l with
  | nil => simp [splitLines]
  | cons c cs ih =>
    have hc : c ≠ '\n' := fun hc => h (hc ▸ List.mem_cons_self _ _)
    rw [List.cons_append, splitLines, if_neg hc, ih fun hn => h (List.mem_cons_of_mem _ hn)]

theorem not_mem_splitLines_snd (l : List Char) : '\n' ∉ (splitLines l).2 := by
  induction l with
  | nil => exact List.not_mem_nil _
  | cons c cs ih =>
    rw [splitLines]
    split_ifs with hc
    · exact ih
    · split
      · exact List.mem_cons.not.mpr (not_or.mpr ⟨Ne.symm hc, ih⟩)
      · exact ih

/-- **Lines of a concatenation**: the lines of `a`, then those of what `a` leaves over
followed by `b`. -/
theorem splitLines_append (a b : List Char) :
    splitLines (a ++ b) =
      ((splitLines a).1 ++ (splitLines ((splitLines a).2 ++ b)).1,
        (splitLines ((splitLines a).2 ++ b)).2) := by
  induction a with
  | nil => rfl
  | cons c cs ih =>
    rw [List.cons_append, splitLines, splitLines, ih]
    split_ifs with hc
    · rfl
    · rcases hlines : (splitLines cs).1 with _ | ⟨l, ls⟩
      · simp only [List.nil_append, List.cons_append, splitLines.eq_2 c, if_neg hc]
      · rfl

/-- **A stream is its lines, each with its `'\n'`, then the bytes after the last one.** -/
theorem splitLines_spec (l : List Char) :
    l = (splitLines l).1.flatMap (· ++ ['\n']) ++ (splitLines l).2 := by
  induction l with
  | nil => rfl
  | cons c cs ih =>
    rw [splitLines]
    split_ifs with hc
    · simp only [List.flatMap_cons, List.nil_append, List.cons_append, List.singleton_append]
      rw [hc, ← ih]
    · rcases hlines : (splitLines cs).1 with _ | ⟨l, ls⟩
      · rw [hlines] at ih
        simpa using ih
      · rw [hlines] at ih
        simp only [List.flatMap_cons, List.cons_append, List.append_assoc] at ih ⊢
        rw [← ih]

theorem splitLines_snd_suffix (l : List Char) : (splitLines l).2 <:+ l := by
  conv_rhs => rw [splitLines_spec l]
  exact List.suffix_append _ _

/-- What a stream leaves over is the start of the first line of what follows, or of what is
left over after it. -/
theorem splitLines_leftover_start {p : List Char} (hp : '\n' ∉ p) (b : List Char) :
    match (splitLines (p ++ b)).1 with
    | [] => p <+: (splitLines (p ++ b)).2
    | l :: _ => p <+: l := by
  induction p with
  | nil => split <;> exact List.nil_prefix
  | cons c cs ih =>
    have hc : c ≠ '\n' := fun hc => hp (hc ▸ List.mem_cons_self _ _)
    have ih := ih fun hn => hp (List.mem_cons_of_mem _ hn)
    rw [List.cons_append, splitLines, if_neg hc]
    rcases hlines : (splitLines (cs ++ b)).1 with _ | ⟨l, ls⟩ <;> rw [hlines] at ih
    · exact List.cons_prefix_cons.mpr ⟨rfl, ih⟩
    · exact List.cons_prefix_cons.mpr ⟨rfl, ih⟩

/-! ### `std::find` -/

theorem not_mem_of_indexOf?_eq_none {c : Char} {l : List Char} (h : l.indexOf? c = none) :
    c ∉ l := by
  intro hc
  have := List.findIdx?_eq_none_iff.mp h c hc
  simp at this

/-- Where `std::find` stops: the line before the first `c`, then `c`, then the rest. -/
theorem eq_of_indexOf?_eq_some {c : Char} {l : List Char} {i : Nat} (h : l.indexOf? c = some i) :
    l = l.take i ++ c :: l.drop (i + 1) ∧ c ∉ l.take i := by
  obtain ⟨hi, hc, hbefore⟩ := List.findIdx?_eq_some_iff_getElem.mp h
  have hc' : l[i] = c := by simpa using hc
  constructor
  · calc l = l.take i ++ l.drop i := (List.take_append_drop i l).symm
      _ = l.take i ++ c :: l.drop (i + 1) := by rw [List.drop_eq_getElem_cons hi, hc']
  · intro hmem
    obtain ⟨j, hj, hjc⟩ := List.getElem_of_mem hmem
    have hji : j < i := by simp only [List.length_take] at hj; omega
    exact hbefore j hji (by simp [← hjc, List.getElem_take])

theorem splitLines_of_indexOf? {l : List Char} {i : Nat} (h : l.indexOf? '\n' = some i) :
    splitLines l = (l.take i :: (splitLines (l.drop (i + 1))).1, (splitLines (l.drop (i + 1))).2) := by
  obtain ⟨hsplit, hline⟩ := eq_of_indexOf?_eq_some h
  conv_lhs => rw [hsplit]
  exact splitLines_line hline _

/-- **The loop of `ParseBuffer`** parses the complete lines in order, and fails exactly when
one of them does not parse; it stops at the bytes after the last `'\n'`. -/
theorem parseBufferLoop_eq (ft : FloatText) (messages : List RawMessage) (sol : List Char) :
    parseBufferLoop ft messages sol =
      ((splitLines sol).1.mapM (parseLine ft)).map fun ms => (messages ++ ms, (splitLines sol).2) := by
  induction messages, sol using parseBufferLoop.induct ft with
  | case1 messages =>
    rw [parseBufferLoop, splitLines, List.mapM_nil]
    simp
  | case2 messages c cs hnone =>
    rw [parseBufferLoop, hnone, splitLines_of_not_mem (not_mem_of_indexOf?_eq_none hnone),
      List.mapM_nil]
    simp
  | case3 messages c cs eol hsome hbad =>
    rw [parseBufferLoop, hsome]
    simp only [hbad]
    rw [splitLines_of_indexOf? hsome, List.mapM_cons, hbad]
    rfl
  | case4 messages c cs eol hsome m hgood ih =>
    rw [parseBufferLoop, hsome]
    simp only [hgood]
    rw [ih, splitLines_of_indexOf? hsome, List.mapM_cons, hgood]
    cases List.mapM (parseLine ft) (splitLines (List.drop (eol + 1) (c :: cs))).1 <;> simp

/-! ### Parsing every line -/

section MapM

variable {α β : Type} {f : α → Option β} {a b : List α}

theorem mapM_append_eq_some {x : List β} (h : (a ++ b).mapM f = some x) :
    ∃ xa xb, a.mapM f = some xa ∧ b.mapM f = some xb ∧ x = xa ++ xb := by
  rw [List.mapM_append] at h
  cases ha : a.mapM f <;> cases hb : b.mapM f <;> rw [ha, hb] at h <;> cases h
  exact ⟨_, _, rfl, rfl, rfl⟩

theorem mapM_append_of_some {xa xb : List β} (ha : a.mapM f = some xa) (hb : b.mapM f = some xb) :
    (a ++ b).mapM f = some (xa ++ xb) := by
  rw [List.mapM_append, ha, hb]
  rfl

theorem mapM_append_of_none (ha : a.mapM f = none) (b : List α) : (a ++ b).mapM f = none := by
  rw [List.mapM_append, ha]
  rfl

theorem mapM_isSome (h : ∀ x ∈ a, (f x).isSome) : (a.mapM f).isSome := by
  induction a with
  | nil => rw [List.mapM_nil]; rfl
  | cons x xs ih =>
    obtain ⟨y, hy⟩ := Option.isSome_iff_exists.mp (h x (List.mem_cons_self _ _))
    obtain ⟨ys, hys⟩ := Option.isSome_iff_exists.mp (ih fun z hz => h z (List.mem_cons_of_mem _ hz))
    rw [List.mapM_cons, hy, hys]
    rfl

end MapM

/-! ### What each handler changes -/

section Frame

variable (s : RawInput) (ec : ErrorCode)

@[simp] theorem handleError_readbuf : (s.handleError ec).readbuf = s.readbuf := by
  unfold RawInput.handleError; split <;> rfl

@[simp] theorem handleError_used : (s.handleError ec).used = s.used := by
  unfold RawInput.handleError; split <;> rfl

@[simp] theorem handleError_dispatched : (s.handleError ec).dispatched = s.dispatched := by
  unfold RawInput.handleError; split <;> rfl

@[simp] theorem scheduleRead_readbuf : s.scheduleRead.readbuf = s.readbuf := by
  unfold RawInput.scheduleRead; split_ifs <;> simp

@[simp] theorem scheduleRead_used : s.scheduleRead.used = s.used := by
  unfold RawInput.scheduleRead; split_ifs <;> simp

@[simp] theorem scheduleRead_dispatched : s.scheduleRead.dispatched = s.dispatched := by
  unfold RawInput.scheduleRead; split_ifs <;> simp

/-- `ScheduleRead` on an open socket with free space starts a read. -/
theorem scheduleRead_reading (hopen : s.socketOpen = true) (hfree : s.used < s.readbuf.length) :
    s.scheduleRead.socketOpen = true ∧ s.scheduleRead.readPending = true := by
  unfold RawInput.scheduleRead
  rw [if_neg (by simp [hopen]), if_neg (by omega)]
  exact ⟨hopen, rfl⟩

end Frame

/-- `ParseBuffer` with its loop replaced by what the loop computes. -/
theorem parseBuffer_eq (ft : FloatText) (s : RawInput) :
    s.parseBuffer ft =
      match (splitLines (s.readbuf.take s.used)).1.mapM (parseLine ft) with
      | none => s.handleError .protocolError
      | some messages =>
        let rest := (splitLines (s.readbuf.take s.used)).2
        let s := if rest.length ≠ s.used then
            { s with readbuf := copyInto s.readbuf 0 rest, used := rest.length }
          else s
        if messages.isEmpty then s else { s with dispatched := s.dispatched ++ [messages] } := by
  rw [RawInput.parseBuffer, parseBufferLoop_eq]
  cases (splitLines (s.readbuf.take s.used)).1.mapM (parseLine ft) <;> rfl

/-- `ParseBuffer` when every complete line parses: the bytes after the last `'\n'` are at
the front of the buffer, and the messages are dispatched. -/
theorem parseBuffer_ok (ft : FloatText) (s : RawInput) {messages : List RawMessage}
    (h : (splitLines (s.readbuf.take s.used)).1.mapM (parseLine ft) = some messages)
    (hused : s.used ≤ s.readbuf.length) :
    (s.parseBuffer ft).readbuf.take (s.parseBuffer ft).used =
        (splitLines (s.readbuf.take s.used)).2 ∧
      (s.parseBuffer ft).dispatched.flatten = s.dispatched.flatten ++ messages ∧
      (s.parseBuffer ft).readbuf.length = s.readbuf.length ∧
      (s.parseBuffer ft).used = (splitLines (s.readbuf.take s.used)).2.length ∧
      (s.parseBuffer ft).socketOpen = s.socketOpen := by
  have hsuffix := splitLines_snd_suffix (s.readbuf.take s.used)
  have hle := hsuffix.length_le
  simp only [List.length_take] at hle
  rw [parseBuffer_eq, h]
  dsimp only
  split_ifs with hempty hmoved hmoved
  · rw [List.isEmpty_iff.mp hempty]
    refine ⟨?_, by simp, length_copyInto _ _ _ (by omega), rfl, rfl⟩
    rw [copyInto_zero, List.take_left]
  · rw [List.isEmpty_iff.mp hempty]
    refine ⟨?_, by simp, rfl, by omega, rfl⟩
    exact (hsuffix.eq_of_length (by simp only [List.length_take]; omega)).symm
  · refine ⟨?_, by simp, length_copyInto _ _ _ (by omega), rfl, rfl⟩
    rw [copyInto_zero, List.take_left]
  · refine ⟨?_, by simp, rfl, by dsimp only; omega, rfl⟩
    exact (hsuffix.eq_of_length (by simp only [List.length_take]; omega)).symm

theorem parseBuffer_fail (ft : FloatText) (s : RawInput)
    (h : (splitLines (s.readbuf.take s.used)).1.mapM (parseLine ft) = none) :
    s.parseBuffer ft = s.handleError .protocolError := by
  rw [parseBuffer_eq, h]

/-! ### One connection -/

/-- The state after the bytes `stream` of a connection: the bytes after the last `'\n'` are
at the front of the buffer, every complete line has been parsed and its message dispatched,
in order, and a read is in flight. -/
structure RawInput.Tracks (ft : FloatText) (s : RawInput) (stream : List Char) : Prop where
  buffer : s.readbuf.take s.used = (splitLines stream).2
  dispatched : (splitLines stream).1.mapM (parseLine ft) = some s.dispatched.flatten
  socketOpen : s.socketOpen = true
  readPending : s.readPending = true
  size : s.readbuf.length = readbufSize
  used_le : s.used ≤ readbufSize

/-- After the connect, nothing has been read. -/
theorem tracks_connected (ft : FloatText) (reconnectInterval : Nat) :
    ((RawInput.init reconnectInterval).step ft .connected).Tracks ft [] := by
  have hsize : (RawInput.init reconnectInterval).readbuf.length = readbufSize :=
    List.length_replicate _ _
  have hstep : (RawInput.init reconnectInterval).step ft .connected =
      { RawInput.init reconnectInterval with connecting := false, socketOpen := true }.scheduleRead := by
    have hc : (RawInput.init reconnectInterval).connecting = true := rfl
    rw [RawInput.step, if_pos hc]
  have hreading := scheduleRead_reading
    { RawInput.init reconnectInterval with connecting := false, socketOpen := true } rfl
    (by show 0 < (List.replicate readbufSize '\x00').length; rw [List.length_replicate]; decide)
  rw [hstep]
  refine ⟨?_, ?_, hreading.1, hreading.2, ?_, ?_⟩
  · rw [scheduleRead_readbuf, scheduleRead_used]
    rfl
  · rw [scheduleRead_dispatched]
    rfl
  · rw [scheduleRead_readbuf]
    exact hsize
  · rw [scheduleRead_used]
    exact Nat.zero_le _

/-- **One read**: a read that fits the free space, after which every complete line parses
and the bytes after the last `'\n'` leave room, keeps the state tracking the stream. -/
theorem RawInput.Tracks.read {ft : FloatText} {s : RawInput} {stream data : List Char}
    (ht : s.Tracks ft stream) (hfit : data.length + (splitLines stream).2.length ≤ readbufSize)
    (hparse : ((splitLines (stream ++ data)).1.mapM (parseLine ft)).isSome)
    (htail : (splitLines (stream ++ data)).2.length < readbufSize) :
    (s.step ft (.readComplete data)).Tracks ft (stream ++ data) := by
  have hsz := ht.size
  have hle := ht.used_le
  have hused : s.used = (splitLines stream).2.length := by
    have := congrArg List.length ht.buffer
    simp only [List.length_take] at this
    omega
  have hfree : data.length ≤ s.readbuf.length - s.used := by
    rw [ht.size, hused]
    omega
  have hsplit := splitLines_append stream data
  obtain ⟨all, hall⟩ := Option.isSome_iff_exists.mp hparse
  rw [hsplit] at hall htail
  dsimp only at hall htail
  obtain ⟨old, messages, hold, hmessages, rfl⟩ := mapM_append_eq_some hall
  rw [ht.dispatched, Option.some.injEq] at hold
  subst hold
  rw [RawInput.step, if_pos ⟨ht.readPending, hfree⟩]
  generalize hs1 : ({ s with
      readPending := false
      readbuf := copyInto s.readbuf s.used data
      used := s.used + data.length } : RawInput) = s1
  have hsize1 : s1.readbuf.length = readbufSize := by
    rw [← hs1]
    dsimp only
    rw [length_copyInto _ _ _ (by omega), ht.size]
  have hused1 : s1.used = s.used + data.length := by rw [← hs1]
  have hbuf1 : s1.readbuf.take s1.used = (splitLines stream).2 ++ data := by
    rw [← hs1, ← ht.buffer]
    exact take_copyInto _ _ _ (by rw [ht.size]; exact ht.used_le)
  rw [← hbuf1] at hmessages htail
  obtain ⟨hbuf, hdisp, hsize, hused', hopen⟩ :=
    parseBuffer_ok ft s1 hmessages (by rw [hsize1, hused1, hused]; omega)
  have hreading := scheduleRead_reading (s1.parseBuffer ft)
    (by rw [hopen, ← hs1]; exact ht.socketOpen) (by rw [hused', hsize, hsize1]; exact htail)
  refine ⟨?_, ?_, hreading.1, hreading.2, ?_, ?_⟩
  · rw [scheduleRead_readbuf, scheduleRead_used, hbuf, hsplit, hbuf1]
  · rw [scheduleRead_dispatched, hdisp, hsplit, ← hs1]
    exact mapM_append_of_some ht.dispatched (hbuf1 ▸ hmessages)
  · rw [scheduleRead_readbuf, hsize, hsize1]
  · rw [scheduleRead_used, hused']
    exact htail.le

/-- **On one connection**, reads of any sizes that fit the free space keep the state tracking
the stream, as long as every complete line parses and every line, with its `'\n'`, fits the
buffer. -/
theorem tracks_run (ft : FloatText) (reconnectInterval : Nat) (chunks : List (List Char))
    (hlines : ∀ l ∈ (splitLines chunks.flatten).1, l.length < readbufSize ∧ (parseLine ft l).isSome)
    (htail : (splitLines chunks.flatten).2.length < readbufSize)
    (hfit : ∀ pre c post, chunks = pre ++ c :: post →
      c.length + (splitLines pre.flatten).2.length ≤ readbufSize) :
    ((RawInput.init reconnectInterval).run ft (.connected :: chunks.map .readComplete)).Tracks ft
      chunks.flatten := by
  induction chunks using List.reverseRecOn with
  | nil =>
    rw [List.map_nil, List.flatten_nil, RawInput.run, List.foldl_cons, List.foldl_nil]
    exact tracks_connected ft reconnectInterval
  | append_singleton pre c ih =>
    rw [List.flatten_append, List.flatten_singleton] at hlines htail
    have hsplit := splitLines_append pre.flatten c
    have hsub : ∀ l ∈ (splitLines pre.flatten).1, l ∈ (splitLines (pre.flatten ++ c)).1 := by
      intro l hl
      rw [hsplit]
      exact List.mem_append_left _ hl
    have htail' : (splitLines pre.flatten).2.length < readbufSize := by
      have hstart := splitLines_leftover_start (not_mem_splitLines_snd pre.flatten) c
      revert hstart
      rcases hfirst : (splitLines ((splitLines pre.flatten).2 ++ c)).1 with _ | ⟨l, ls⟩
      · intro hstart
        have : (splitLines (pre.flatten ++ c)).2 = (splitLines ((splitLines pre.flatten).2 ++ c)).2 :=
          by rw [hsplit]
        exact lt_of_le_of_lt hstart.length_le (this ▸ htail)
      · intro hstart
        have hl : l ∈ (splitLines (pre.flatten ++ c)).1 := by
          rw [hsplit, hfirst]
          exact List.mem_append_right _ (List.mem_cons_self _ _)
        exact lt_of_le_of_lt hstart.length_le (hlines l hl).1
    have hrun := ih (fun l hl => hlines l (hsub l hl)) htail'
      (fun pre' c' post' h => hfit pre' c' (post' ++ [c]) (by rw [h]; simp))
    have hstep := hrun.read (hfit pre c [] rfl)
      (mapM_isSome fun l hl => (hlines l hl).2) htail
    have hlast : (RawInput.init reconnectInterval).run ft
        (.connected :: (pre ++ [c]).map .readComplete) =
          ((RawInput.init reconnectInterval).run ft (.connected :: pre.map .readComplete)).step ft
            (.readComplete c) := by
      simp only [RawInput.run, List.map_append, List.map_cons, List.map_nil, ← List.cons_append,
        List.foldl_append, List.foldl_cons, List.foldl_nil]
    rw [hlast, List.flatten_append, List.flatten_singleton]
    exact hstep

/-- **Every complete line of a connection is dispatched once, in order**: over reads of any
sizes that fit the free space, when every line fits the buffer and parses, the dispatched
messages are `ParseLine` of the stream's complete lines, and the buffer starts with the
bytes after the last `'\n'`; the connection stays open, reading. -/
theorem run_reads (ft : FloatText) (reconnectInterval : Nat) (chunks : List (List Char))
    (hlines : ∀ l ∈ (splitLines chunks.flatten).1, l.length < readbufSize ∧ (parseLine ft l).isSome)
    (htail : (splitLines chunks.flatten).2.length < readbufSize)
    (hfit : ∀ pre c post, chunks = pre ++ c :: post →
      c.length + (splitLines pre.flatten).2.length ≤ readbufSize) :
    (splitLines chunks.flatten).1.mapM (parseLine ft) = some ((RawInput.init reconnectInterval).run ft
        (.connected :: chunks.map .readComplete)).dispatched.flatten ∧
      ((RawInput.init reconnectInterval).run ft (.connected :: chunks.map .readComplete)).readbuf.take
          ((RawInput.init reconnectInterval).run ft (.connected :: chunks.map .readComplete)).used =
        (splitLines chunks.flatten).2 ∧
      ((RawInput.init reconnectInterval).run ft (.connected :: chunks.map .readComplete)).socketOpen ∧
      ((RawInput.init reconnectInterval).run ft (.connected :: chunks.map .readComplete)).readPending := by
  have ht := tracks_run ft reconnectInterval chunks hlines htail hfit
  exact ⟨ht.dispatched, ht.buffer, ht.socketOpen, ht.readPending⟩

/-- The line `-;` read in two pieces, split after `-;`, with a `-` left over. -/
theorem run_reads_split_line :
    (∀ l ∈ (splitLines [['-', ';'], ['\n', '-']].flatten).1,
        l.length < readbufSize ∧ (parseLine ⟨fun _ => [], fun _ => .ok 0⟩ l).isSome) ∧
      (splitLines [['-', ';'], ['\n', '-']].flatten).2.length < readbufSize ∧
      (∀ pre c post, [['-', ';'], ['\n', '-']] = pre ++ c :: post →
        c.length + (splitLines pre.flatten).2.length ≤ readbufSize) ∧
      (splitLines [['-', ';'], ['\n', '-']].flatten).1.mapM (parseLine ⟨fun _ => [], fun _ => .ok 0⟩) =
          some ((RawInput.init 0).run ⟨fun _ => [], fun _ => .ok 0⟩
            (.connected :: [['-', ';'], ['\n', '-']].map .readComplete)).dispatched.flatten ∧
        ((RawInput.init 0).run ⟨fun _ => [], fun _ => .ok 0⟩
            (.connected :: [['-', ';'], ['\n', '-']].map .readComplete)).readbuf.take
            ((RawInput.init 0).run ⟨fun _ => [], fun _ => .ok 0⟩
              (.connected :: [['-', ';'], ['\n', '-']].map .readComplete)).used =
          (splitLines [['-', ';'], ['\n', '-']].flatten).2 ∧
        ((RawInput.init 0).run ⟨fun _ => [], fun _ => .ok 0⟩
          (.connected :: [['-', ';'], ['\n', '-']].map .readComplete)).socketOpen ∧
        ((RawInput.init 0).run ⟨fun _ => [], fun _ => .ok 0⟩
          (.connected :: [['-', ';'], ['\n', '-']].map .readComplete)).readPending := by
  have hsplit : splitLines [['-', ';'], ['\n', '-']].flatten = ([['-', ';']], ['-']) := rfl
  have hlines : ∀ l ∈ (splitLines [['-', ';'], ['\n', '-']].flatten).1,
      l.length < readbufSize ∧ (parseLine ⟨fun _ => [], fun _ => .ok 0⟩ l).isSome := by
    rw [hsplit]
    intro l hl
    rw [List.mem_singleton.mp hl]
    refine ⟨by decide, ?_⟩
    rw [show ['-', ';'] = '-' :: ([] : Bytes).flatMap hexByte ++ ';' :: [] from rfl,
      parseLine_frame _ (Or.inl rfl) [] []]
    rfl
  have htail : (splitLines [['-', ';'], ['\n', '-']].flatten).2.length < readbufSize := by
    rw [hsplit]
    decide
  have hfit : ∀ pre c post, [['-', ';'], ['\n', '-']] = pre ++ c :: post →
      c.length + (splitLines pre.flatten).2.length ≤ readbufSize := by
    intro pre c post h
    rcases pre with _ | ⟨p1, _ | ⟨p2, pre⟩⟩ <;>
      simp only [List.nil_append, List.cons_append, List.cons.injEq] at h
    · rw [← h.1]
      decide
    · rw [← h.1, ← h.2.1]
      decide
    · simp at h
  exact ⟨hlines, htail, hfit, run_reads _ 0 _ hlines htail hfit⟩

/-! ### After a line that does not parse -/

/-- Bytes whose complete lines include one that does not parse, whatever follows them. -/
def LinesFail (ft : FloatText) (bytes : List Char) : Prop :=
  ∀ more, (splitLines (bytes ++ more)).1.mapM (parseLine ft) = none

theorem linesFail_of_mapM (ft : FloatText) {bytes : List Char}
    (h : (splitLines bytes).1.mapM (parseLine ft) = none) : LinesFail ft bytes := by
  intro more
  rw [splitLines_append]
  exact mapM_append_of_none h _

/-- The buffer starts with `bytes`. -/
structure RawInput.Holds (s : RawInput) (bytes : List Char) : Prop where
  front : bytes <+: s.readbuf.take s.used
  size : s.readbuf.length = readbufSize
  used_le : s.used ≤ readbufSize

/-- A read after which a complete line does not parse: the buffer keeps all its bytes and the
new ones (`HandleError` does not reset `used_`), and nothing is dispatched. -/
theorem step_read_fail (ft : FloatText) (s : RawInput) (data : List Char)
    (hread : s.readPending = true ∧ data.length ≤ s.readbuf.length - s.used)
    (hsize : s.readbuf.length = readbufSize) (hle : s.used ≤ readbufSize)
    (hfails : (splitLines (s.readbuf.take s.used ++ data)).1.mapM (parseLine ft) = none) :
    (s.step ft (.readComplete data)).readbuf.take (s.step ft (.readComplete data)).used =
        s.readbuf.take s.used ++ data ∧
      (s.step ft (.readComplete data)).readbuf.length = readbufSize ∧
      (s.step ft (.readComplete data)).used ≤ readbufSize ∧
      (s.step ft (.readComplete data)).dispatched = s.dispatched := by
  have hfree := hread.2
  rw [RawInput.step, if_pos hread]
  generalize hs1 : ({ s with
      readPending := false
      readbuf := copyInto s.readbuf s.used data
      used := s.used + data.length } : RawInput) = s1
  have hsize1 : s1.readbuf.length = readbufSize := by
    rw [← hs1]
    dsimp only
    rw [length_copyInto _ _ _ (by omega), hsize]
  have hused1 : s1.used = s.used + data.length := by rw [← hs1]
  have hbuf1 : s1.readbuf.take s1.used = s.readbuf.take s.used ++ data := by
    rw [← hs1]
    exact take_copyInto _ _ _ (by omega)
  rw [parseBuffer_fail ft s1 (hbuf1 ▸ hfails)]
  refine ⟨?_, ?_, ?_, ?_⟩
  · rw [scheduleRead_readbuf, scheduleRead_used, handleError_readbuf, handleError_used, hbuf1]
  · rw [scheduleRead_readbuf, handleError_readbuf, hsize1]
  · rw [scheduleRead_used, handleError_used, hused1]
    omega
  · rw [scheduleRead_dispatched, handleError_dispatched, ← hs1]

/-- **One event after a bad line**: the buffer keeps starting with bytes whose lines cannot
all parse, and nothing is dispatched. -/
theorem RawInput.Holds.step {ft : FloatText} {bytes : List Char} (hfail : LinesFail ft bytes)
    {s : RawInput} (hs : s.Holds bytes) (e : RawInputEvent) :
    (s.step ft e).Holds bytes ∧ (s.step ft e).dispatched = s.dispatched := by
  cases e with
  | readComplete data =>
    by_cases hread : s.readPending = true ∧ data.length ≤ s.readbuf.length - s.used
    · obtain ⟨more, hmore⟩ := hs.front
      obtain ⟨hbuf, hsize, hle, hdisp⟩ := step_read_fail ft s data hread hs.size hs.used_le
        (by rw [← hmore, List.append_assoc]; exact hfail _)
      exact ⟨⟨hbuf ▸ hs.front.trans (List.prefix_append _ _), hsize, hle⟩, hdisp⟩
    · rw [RawInput.step, if_neg hread]
      exact ⟨hs, rfl⟩
  | connected =>
    rw [RawInput.step]
    split_ifs
    · exact ⟨⟨by simpa using hs.front, by simpa using hs.size, by simpa using hs.used_le⟩, by simp⟩
    · exact ⟨hs, rfl⟩
  | connectFailed ec =>
    rw [RawInput.step]
    split_ifs
    · exact ⟨⟨by simpa using hs.front, by simpa using hs.size, by simpa using hs.used_le⟩, by simp⟩
    · exact ⟨hs, rfl⟩
  | readFailed ec =>
    rw [RawInput.step]
    split_ifs
    · exact ⟨⟨by simpa using hs.front, by simpa using hs.size, by simpa using hs.used_le⟩, by simp⟩
    · exact ⟨hs, rfl⟩
  | timerExpired =>
    rw [RawInput.step]
    split_ifs
    · exact ⟨⟨hs.front, hs.size, hs.used_le⟩, rfl⟩
    · exact ⟨hs, rfl⟩
  | stop => exact ⟨⟨hs.front, hs.size, hs.used_le⟩, rfl⟩

/-- **A bad line is never cleared**: over every run that follows, through any number of
reconnections, the buffer starts with the same bytes and nothing is dispatched. -/
theorem RawInput.Holds.run {ft : FloatText} {bytes : List Char} (hfail : LinesFail ft bytes)
    {s : RawInput} (hs : s.Holds bytes) (events : List RawInputEvent) :
    (s.run ft events).Holds bytes ∧ (s.run ft events).dispatched = s.dispatched := by
  induction events generalizing s with
  | nil => exact ⟨hs, rfl⟩
  | cons e events ih =>
    obtain ⟨hs', hd⟩ := hs.step hfail e
    obtain ⟨hrun, hd'⟩ := ih hs'
    exact ⟨hrun, hd'.trans hd⟩

/-- **A line that does not parse poisons the input**: when the first read of a connection
holds a complete line that does not parse, nothing is ever dispatched — not the lines before
it, not any line of a later connection — and the bytes of that read stay at the front of the
buffer through every later event, reconnections included. -/
theorem run_malformed_read (ft : FloatText) (reconnectInterval : Nat) (data : List Char)
    (hbad : (splitLines data).1.mapM (parseLine ft) = none) (hfit : data.length ≤ readbufSize)
    (events : List RawInputEvent) :
    ((RawInput.init reconnectInterval).run ft (.connected :: .readComplete data :: events)).dispatched =
        [] ∧
      data <+: ((RawInput.init reconnectInterval).run ft
          (.connected :: .readComplete data :: events)).readbuf.take
        ((RawInput.init reconnectInterval).run ft (.connected :: .readComplete data :: events)).used := by
  have hrun : (RawInput.init reconnectInterval).run ft (.connected :: .readComplete data :: events) =
      (((RawInput.init reconnectInterval).step ft .connected).step ft (.readComplete data)).run ft
        events := by
    rw [RawInput.run, RawInput.run, List.foldl_cons, List.foldl_cons]
  have hdisp0 : ((RawInput.init reconnectInterval).step ft .connected).dispatched = [] := by
    rw [RawInput.step, if_pos (show (RawInput.init reconnectInterval).connecting = true from rfl),
      scheduleRead_dispatched]
    rfl
  have ht := tracks_connected ft reconnectInterval
  rw [hrun]
  generalize (RawInput.init reconnectInterval).step ft .connected = s0 at ht hdisp0
  have hsize := ht.size
  have hused : s0.used = 0 := by
    have := congrArg List.length ht.buffer
    simp only [List.length_take, splitLines, List.length_nil, hsize] at this
    have : readbufSize = 8192 := rfl
    omega
  have hempty : s0.readbuf.take s0.used = [] := by rw [hused, List.take_zero]
  obtain ⟨hbuf, hsize1, hle1, hdisp⟩ := step_read_fail ft s0 data
    ⟨ht.readPending, by rw [hsize, hused]; exact hfit⟩ hsize ht.used_le
    (by rw [hempty]; exact hbad)
  rw [hempty, List.nil_append] at hbuf
  obtain ⟨hrun, hdisp'⟩ := RawInput.Holds.run (linesFail_of_mapM ft hbad)
    ⟨by rw [hbuf], hsize1, hle1⟩ events
  exact ⟨hdisp'.trans (hdisp.trans hdisp0), hrun.front⟩

/-- A good line `-;` and a bad one `X` in the first read; the connection then fails, the
timer fires, a new connection opens and sends a good line. -/
theorem run_malformed_read_reconnect :
    (splitLines ['-', ';', '\n', 'X', '\n']).1.mapM (parseLine ⟨fun _ => [], fun _ => .ok 0⟩) =
        none ∧
      (['-', ';', '\n', 'X', '\n'] : List Char).length ≤ readbufSize ∧
      ((RawInput.init 1000).run ⟨fun _ => [], fun _ => .ok 0⟩
          (.connected :: .readComplete ['-', ';', '\n', 'X', '\n'] ::
            [.timerExpired, .connected, .readComplete ['-', ';', '\n']])).dispatched = [] ∧
        ['-', ';', '\n', 'X', '\n'] <+: ((RawInput.init 1000).run ⟨fun _ => [], fun _ => .ok 0⟩
            (.connected :: .readComplete ['-', ';', '\n', 'X', '\n'] ::
              [.timerExpired, .connected, .readComplete ['-', ';', '\n']])).readbuf.take
          ((RawInput.init 1000).run ⟨fun _ => [], fun _ => .ok 0⟩
            (.connected :: .readComplete ['-', ';', '\n', 'X', '\n'] ::
              [.timerExpired, .connected, .readComplete ['-', ';', '\n']])).used := by
  have hbad : (splitLines ['-', ';', '\n', 'X', '\n']).1.mapM
      (parseLine ⟨fun _ => [], fun _ => .ok 0⟩) = none := by
    have hsplit : splitLines ['-', ';', '\n', 'X', '\n'] = ([['-', ';'], ['X']], []) := rfl
    have hX : parseLine ⟨fun _ => [], fun _ => .ok 0⟩ ['X'] = none := rfl
    rw [hsplit, List.mapM_cons, List.mapM_cons, hX]
    cases parseLine ⟨fun _ => [], fun _ => .ok 0⟩ ['-', ';'] <;> rfl
  have hfit : (['-', ';', '\n', 'X', '\n'] : List Char).length ≤ readbufSize := by decide
  exact ⟨hbad, hfit, run_malformed_read _ 1000 _ hbad hfit _⟩

end Dump978
