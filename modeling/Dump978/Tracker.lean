import Dump978.SocketOutput
import Dump978.Track

namespace Dump978

/-!
# The aircraft tracker — `Tracker` (`track.cc`, `track.h`)

`Tracker` keeps one `AircraftState` per aircraft, in a `std::map` keyed by the pair
`(address_qualifier, address)`, and counts the messages it handled. Two handlers run on its
strand and so never interleave. `HandleMessages` passes each downlink message received
within `PAST_FUZZ` before and `FUTURE_FUZZ` after the clock to `HandleMessage`, which finds
the aircraft's state, or makes a new one, and updates it. On a timer, `PurgeOld` erases every
aircraft not heard from within `timeout_`. A run of the tracker is therefore any sequence of
the two (`TrackerEvent`). An exception of `AdsbMessage`'s constructor leaves the handler at
that message, and the run with it.

The map is a key-sorted association list, as in `Common`, and `Tracker` carries its order as
a field. The loop of `HandleMessages` and the run are written once, over any state and any
`HandleMessage` and `PurgeOld` (`handleMessagesWith`, `runWith`). The tracker is one instance;
the abstract model `TrackerSpec` is the other. `TrackerSpec` keeps, for each aircraft, the
messages handled for it since its entry was made, and the number of messages handled.

Main results:

* `Tracker.run_refines` — over every run from a new tracker, the entry of each aircraft is
  `UpdateFromMessage` folded over its own messages from a new `AircraftState`, and
  `total_messages_` counts the handled messages modulo `2^32`;
* `Tracker.run_entries` — in every reachable map, each entry is the state of a nonempty
  sequence of messages addressed to its own key, and keeps `AircraftState.Inv`;
* `Tracker.accepts_iff` — the clock test of `HandleMessages` in unwrapped arithmetic, and
  that it passes nothing while the clock is below `PAST_FUZZ`;
* `shortFrame_outOfRange` — a short frame of payload type 1 to 6 ends `HandleMessages` with
  `std::out_of_range`, the messages after it not handled, and makes
  `JsonOutput::InternalWrite` throw.
-/

/-! ### Keys -/

/-- The value of an `AddressQualifier`, an `enum class : unsigned char`. -/
def AddressQualifier.toNat : AddressQualifier → Nat
  | .adsbIcao => 0 | .adsbOther => 1 | .tisbIcao => 2 | .tisbTrackfile => 3 | .vehicle => 4
  | .fixedBeacon => 5 | .adsrOther => 6 | .reserved => 7 | .invalid => 8

theorem AddressQualifier.ofBits_toNat (aq : AddressQualifier) : ofBits aq.toNat = aq := by
  cases aq <;> rfl

theorem AddressQualifier.toNat_injective : Function.Injective AddressQualifier.toNat :=
  Function.LeftInverse.injective ofBits_toNat

/-- `Tracker::AddressKey`, a `std::pair<AddressQualifier, AdsbAddress>`. -/
structure AddressKey where
  qualifier : AddressQualifier
  address : UInt32
  deriving Repr

/-- The key as one number, qualifier first, so that the order of numbers is the order of
`std::pair` (`AddressKey.lt_iff`). -/
def AddressKey.rank (k : AddressKey) : Nat := k.qualifier.toNat * 2 ^ 32 + k.address.toNat

theorem AddressKey.rank_injective : Function.Injective AddressKey.rank := by
  intro ⟨q₁, a₁⟩ ⟨q₂, a₂⟩ h
  have h₁ : a₁.toNat < 2 ^ 32 := a₁.toNat_lt_size
  have h₂ : a₂.toNat < 2 ^ 32 := a₂.toNat_lt_size
  simp only [rank] at h
  have hq : q₁.toNat = q₂.toNat := by omega
  have ha : a₁.toNat = a₂.toNat := by omega
  rw [AddressQualifier.toNat_injective hq, UInt32.toNat.inj ha]

instance : LinearOrder AddressKey := LinearOrder.lift' AddressKey.rank AddressKey.rank_injective

/-- The map's order is `std::pair`'s `operator<`: by qualifier, then by address. -/
theorem AddressKey.lt_iff (a b : AddressKey) :
    a < b ↔ a.qualifier.toNat < b.qualifier.toNat ∨
      (a.qualifier = b.qualifier ∧ a.address < b.address) := by
  have ha : a.address.toNat < 2 ^ 32 := a.address.toNat_lt_size
  have hb : b.address.toNat < 2 ^ 32 := b.address.toNat_lt_size
  rw [show a < b ↔ a.rank < b.rank from Iff.rfl, ← AddressQualifier.toNat_injective.eq_iff,
    show a.address < b.address ↔ a.address.toNat < b.address.toNat from Iff.rfl, rank, rank]
  omega

/-- `AddressKey key{message.address_qualifier, message.address}`. -/
def AdsbMessage.key (m : AdsbMessage) : AddressKey := ⟨m.addressQualifier, m.address⟩

/-- The state of aircraft `k` after the messages `h`: `UpdateFromMessage` over them from a new
`AircraftState(k)`. -/
def AddressKey.stateOf (k : AddressKey) (h : List AdsbMessage) : AircraftState :=
  (AircraftState.init k.qualifier k.address).run h

/-! ### The tracker -/

/-- A `Tracker`'s state: `aircraft_`, a `std::map` in key order, and `total_messages_`. -/
structure Tracker where
  aircraft : List (AddressKey × AircraftState)
  totalMessages : UInt32
  sorted : KeysSorted aircraft

/-- `Tracker(service, timeout)`: no aircraft and no message. -/
def Tracker.init : Tracker := ⟨[], 0, .nil⟩

/-- `HandleMessage(message)`: the aircraft's state, or `{address_qualifier, address}` when the
map holds none, updated by the message; then `++total_messages_`. -/
def Tracker.handleMessage (t : Tracker) (m : AdsbMessage) : Tracker where
  aircraft := mapAssign t.aircraft m.key
    (((t.aircraft.lookup m.key).getD (.init m.addressQualifier m.address)).updateFromMessage m)
  totalMessages := t.totalMessages + 1
  sorted := t.sorted.mapAssign _ _

/-- `PurgeOld()` with the clock at `now`, `timeout` being `timeout_.count()` as a `uint64_t`:
every aircraft whose `last_message_time` is before `now - timeout` is erased. -/
def Tracker.purgeOld (timeout now : UInt64) (t : Tracker) : Tracker where
  aircraft := t.aircraft.filter fun e => !decide (e.2.lastMessageTime < now - timeout)
  totalMessages := t.totalMessages
  sorted := t.sorted.filter _

/-- `PAST_FUZZ`. -/
def pastFuzz : UInt64 := 15000

/-- `FUTURE_FUZZ`. -/
def futureFuzz : UInt64 := 1000

/-- The two `continue` tests of `HandleMessages`' loop, passed: a downlink message received
at most `PAST_FUZZ` before and `FUTURE_FUZZ` after `now`, in `uint64_t` arithmetic. -/
def Tracker.accepts (now : UInt64) (message : RawMessage) : Bool :=
  decide (message.type = .downlinkShort ∨ message.type = .downlinkLong) &&
    !decide (message.receivedAt = 0 ∨ message.receivedAt < now - pastFuzz ∨
      message.receivedAt > now + futureFuzz)

/-- The loop of `HandleMessages`' handler with the clock at `now` and `handle` for
`HandleMessage`: each message that `accepts` passes is built into an `AdsbMessage` and
handled; the constructor's exception leaves the loop. -/
def handleMessagesWith {σ : Type} (handle : σ → AdsbMessage → σ) (now : UInt64) :
    σ → MessageVector → σ × Option StdException
  | s, [] => (s, none)
  | s, message :: rest =>
    if Tracker.accepts now message then
      match AdsbMessage.ofRaw message with
      | .ok m => handleMessagesWith handle now (handle s m) rest
      | .error e => (s, some e)
    else handleMessagesWith handle now s rest

/-- `HandleMessages(messages)`, run on the strand with the clock at `now`. -/
def Tracker.handleMessages (now : UInt64) (t : Tracker) (messages : MessageVector) :
    Tracker × Option StdException :=
  handleMessagesWith Tracker.handleMessage now t messages

/-- What runs on the tracker's strand: `HandleMessages` and the timer's `PurgeOld`, each with
the clock it reads. -/
inductive TrackerEvent
  | handleMessages (now : UInt64) (messages : MessageVector)
  | purgeOld (now : UInt64)

/-- The handlers of a run in turn, with `handle` for `HandleMessage` and `purge now` for
`PurgeOld`'s erasing; an exception ends the run. -/
def runWith {σ : Type} (handle : σ → AdsbMessage → σ) (purge : UInt64 → σ → σ) :
    σ → List TrackerEvent → σ × Option StdException
  | s, [] => (s, none)
  | s, .handleMessages now messages :: es =>
    match handleMessagesWith handle now s messages with
    | (s', none) => runWith handle purge s' es
    | (s', some e) => (s', some e)
  | s, .purgeOld now :: es => runWith handle purge (purge now s) es

/-- A run of a tracker created with timeout `timeout`. -/
def Tracker.run (timeout : UInt64) (t : Tracker) (events : List TrackerEvent) :
    Tracker × Option StdException :=
  runWith Tracker.handleMessage (Tracker.purgeOld timeout) t events

/-! ### The abstract tracker -/

/-- What the tracker is for: for each aircraft, the messages handled for it since its entry
was made (`none`: not tracked), and how many messages were handled. -/
structure TrackerSpec where
  histories : AddressKey → Option (List AdsbMessage)
  handled : Nat

def TrackerSpec.init : TrackerSpec := ⟨fun _ => none, 0⟩

/-- A handled message joins its own aircraft's messages. -/
def TrackerSpec.handle (a : TrackerSpec) (m : AdsbMessage) : TrackerSpec where
  histories := Function.update a.histories m.key (some ((a.histories m.key).getD [] ++ [m]))
  handled := a.handled + 1

/-- An aircraft whose state was last updated before `now - timeout` is forgotten. -/
def TrackerSpec.purge (timeout now : UInt64) (a : TrackerSpec) : TrackerSpec where
  histories k := (a.histories k).filter fun h => !decide ((k.stateOf h).lastMessageTime < now - timeout)
  handled := a.handled

def TrackerSpec.run (timeout : UInt64) (a : TrackerSpec) (events : List TrackerEvent) :
    TrackerSpec × Option StdException :=
  runWith TrackerSpec.handle (TrackerSpec.purge timeout) a events

/-- The tracker holds, for each key, the state of that aircraft's messages, and counts the
handled messages modulo `2^32`. -/
structure Tracker.Refines (t : Tracker) (a : TrackerSpec) : Prop where
  lookup_eq : ∀ k, t.aircraft.lookup k = (a.histories k).map k.stateOf
  totalMessages_eq : t.totalMessages.toNat = a.handled % 2 ^ 32

/-! ### Simulation through the loop and the run -/

section Simulation

variable {σ τ : Type} {R : σ → τ → Prop} {f : σ → AdsbMessage → σ} {g : τ → AdsbMessage → τ}

/-- A relation that each `HandleMessage` keeps is kept by the loop, which ends with the same
exception on both sides. -/
theorem handleMessagesWith_sim (hfg : ∀ s a m, R s a → R (f s m) (g a m)) (now : UInt64)
    (messages : MessageVector) {s : σ} {a : τ} (h : R s a) :
    R (handleMessagesWith f now s messages).1 (handleMessagesWith g now a messages).1 ∧
      (handleMessagesWith f now s messages).2 = (handleMessagesWith g now a messages).2 := by
  induction messages generalizing s a with
  | nil => exact ⟨h, rfl⟩
  | cons message rest ih =>
    simp only [handleMessagesWith]
    split
    · split
      · exact ih (hfg s a _ h)
      · exact ⟨h, rfl⟩
    · exact ih h

/-- A relation that each `HandleMessage` and each `PurgeOld` keep is kept by every run,
which ends with the same exception on both sides. -/
theorem runWith_sim {p : UInt64 → σ → σ} {q : UInt64 → τ → τ}
    (hfg : ∀ s a m, R s a → R (f s m) (g a m)) (hpq : ∀ s a now, R s a → R (p now s) (q now a))
    (events : List TrackerEvent) {s : σ} {a : τ} (h : R s a) :
    R (runWith f p s events).1 (runWith g q a events).1 ∧
      (runWith f p s events).2 = (runWith g q a events).2 := by
  induction events generalizing s a with
  | nil => exact ⟨h, rfl⟩
  | cons e es ih =>
    cases e with
    | handleMessages now messages =>
      obtain ⟨hr, he⟩ := handleMessagesWith_sim hfg now messages h
      simp only [runWith]
      revert hr he
      cases handleMessagesWith f now s messages with
      | mk s' e₁ =>
        cases handleMessagesWith g now a messages with
        | mk a' e₂ =>
          rintro hr (rfl : e₁ = e₂)
          cases e₁ with
          | none => exact ih hr
          | some ex => exact ⟨hr, rfl⟩
    | purgeOld now => exact ih (hpq s a now h)

end Simulation

/-! ### Refinement -/

section Refinement

variable {t : Tracker} {a : TrackerSpec}

theorem Tracker.Refines.init : Tracker.init.Refines TrackerSpec.init :=
  ⟨fun _ => rfl, rfl⟩

/-- One `HandleMessage`: the message's aircraft gets its state updated, or a new state
updated, and no other aircraft changes. -/
theorem Tracker.Refines.handleMessage (h : t.Refines a) (m : AdsbMessage) :
    (t.handleMessage m).Refines (a.handle m) := by
  refine ⟨fun k => ?_, ?_⟩
  · simp only [Tracker.handleMessage, TrackerSpec.handle, lookup_mapAssign]
    by_cases hk : k = m.key
    · subst hk
      rw [if_pos rfl, Function.update_same, h.lookup_eq]
      cases a.histories m.key with
      | none => rfl
      | some hist => simp [AddressKey.stateOf, AircraftState.run_append_singleton]
    · rw [if_neg hk, Function.update_noteq hk, h.lookup_eq]
  · have hone : (1 : UInt32).toNat = 1 := rfl
    show (t.totalMessages + 1).toNat = (a.handled + 1) % 2 ^ 32
    rw [UInt32.toNat_add, h.totalMessages_eq, hone, UInt32.size]
    omega

/-- One `PurgeOld`: an aircraft stays, unchanged, exactly when its state is not stale. -/
theorem Tracker.Refines.purgeOld (h : t.Refines a) (timeout now : UInt64) :
    (t.purgeOld timeout now).Refines (a.purge timeout now) := by
  refine ⟨fun k => ?_, h.totalMessages_eq⟩
  simp only [Tracker.purgeOld, TrackerSpec.purge, lookup_filter t.sorted, h.lookup_eq]
  cases a.histories k <;> simp [Option.filter]

theorem Tracker.Refines.run (h : t.Refines a) (timeout : UInt64) (events : List TrackerEvent) :
    (t.run timeout events).1.Refines (a.run timeout events).1 ∧
      (t.run timeout events).2 = (a.run timeout events).2 :=
  runWith_sim (fun _ _ m h => h.handleMessage m) (fun _ _ now h => h.purgeOld timeout now)
    events h

end Refinement

/-- **Every run of the tracker refines the abstract one.** Over every sequence of
`HandleMessages` and `PurgeOld` handlers run on the strand of a new tracker: the entry of
each aircraft is `UpdateFromMessage` folded over the messages handled for it since its entry
was made, from a new `AircraftState`, and there is none for an aircraft without such
messages; no message is lost, applied twice or applied to another aircraft;
`total_messages_` is the number of messages handled, modulo `2^32`; and the run ends with
the same exception as the abstract one. -/
theorem Tracker.run_refines (timeout : UInt64) (events : List TrackerEvent) :
    (Tracker.init.run timeout events).1.Refines (TrackerSpec.init.run timeout events).1 ∧
      (Tracker.init.run timeout events).2 = (TrackerSpec.init.run timeout events).2 :=
  Tracker.Refines.init.run timeout events

/-! ### The entries of a reachable map -/

section Entries

variable {s : AircraftState} {a : TrackerSpec}

theorem AircraftState.key_updateFromMessage (m : AdsbMessage) :
    (s.updateFromMessage m).addressQualifier = s.addressQualifier ∧
      (s.updateFromMessage m).address = s.address := by
  unfold AircraftState.updateFromMessage AircraftState.deriveContainment
  split
  · exact ⟨rfl, rfl⟩
  · split <;> exact ⟨rfl, rfl⟩

/-- A state keeps the qualifier and the address it was made with. -/
theorem AircraftState.key_run (msgs : List AdsbMessage) :
    (s.run msgs).addressQualifier = s.addressQualifier ∧ (s.run msgs).address = s.address := by
  induction msgs generalizing s with
  | nil => exact ⟨rfl, rfl⟩
  | cons m ms ih =>
    obtain ⟨hq, ha⟩ := AircraftState.key_updateFromMessage (s := s) m
    rw [AircraftState.run_cons, ih.1, ih.2, hq, ha]
    exact ⟨rfl, rfl⟩

/-- In a sorted map, an entry is what its key finds. -/
theorem lookup_of_mem {κ β : Type} [LinearOrder κ] {m : List (κ × β)} (hs : KeysSorted m)
    {e : κ × β} (he : e ∈ m) : m.lookup e.1 = some e.2 := by
  induction m with
  | nil => cases he
  | cons e₀ rest ih =>
    obtain ⟨hhead, hrest⟩ := List.pairwise_cons.mp hs
    rw [lookup_cons_ite]
    rcases List.mem_cons.mp he with rfl | he
    · exact if_pos rfl
    · rw [if_neg (hhead e he).ne', ih hrest he]

/-- Every aircraft the abstract tracker holds has messages, all addressed to it. -/
def TrackerSpec.Inv (a : TrackerSpec) : Prop :=
  ∀ k hist, a.histories k = some hist → hist ≠ [] ∧ ∀ m ∈ hist, m.key = k

theorem TrackerSpec.Inv.init : TrackerSpec.init.Inv := fun _ _ h => nomatch h

theorem TrackerSpec.Inv.handle (h : a.Inv) (m : AdsbMessage) : (a.handle m).Inv := by
  intro k hist hk
  by_cases hkm : k = m.key
  · subst hkm
    dsimp only [TrackerSpec.handle] at hk
    rw [Function.update_same, Option.some_inj] at hk
    subst hk
    refine ⟨List.append_ne_nil_of_right_ne_nil _ (List.cons_ne_nil m []), fun m' hm' => ?_⟩
    rcases List.mem_append.mp hm' with hm' | hm'
    · cases ho : a.histories m.key with
      | none => rw [ho] at hm'; cases hm'
      | some old => rw [ho] at hm'; exact (h _ old ho).2 m' hm'
    · rw [List.mem_singleton.mp hm']
  · dsimp only [TrackerSpec.handle] at hk
    rw [Function.update_noteq hkm] at hk
    exact h k hist hk

theorem TrackerSpec.Inv.purge (h : a.Inv) (timeout now : UInt64) : (a.purge timeout now).Inv :=
  fun k hist hk => h k hist (Option.filter_eq_some.mp hk).1

theorem TrackerSpec.Inv.run (h : a.Inv) (timeout : UInt64) (events : List TrackerEvent) :
    (a.run timeout events).1.Inv :=
  (runWith_sim (R := fun x _ => TrackerSpec.Inv x) (g := TrackerSpec.handle)
    (q := TrackerSpec.purge timeout) (fun _ _ m h => h.handle m)
    (fun _ _ now h => h.purge timeout now) events (a := a) h).1

/-- **Every entry of a reachable map is its own aircraft's.** After every run from a new
tracker, each entry `(k, s)` of `aircraft_` is `UpdateFromMessage` folded, from a new
`AircraftState(k)`, over a nonempty sequence of messages all addressed to `k`; so `s` carries
`k`'s qualifier and address, and keeps `AircraftState.Inv`. -/
theorem Tracker.run_entries (timeout : UInt64) (events : List TrackerEvent) :
    ∀ e ∈ (Tracker.init.run timeout events).1.aircraft,
      ∃ hist, hist ≠ [] ∧ (∀ m ∈ hist, m.key = e.1) ∧ e.2 = e.1.stateOf hist ∧
        e.2.addressQualifier = e.1.qualifier ∧ e.2.address = e.1.address ∧ e.2.Inv := by
  intro e he
  have hrefines := (Tracker.Refines.init.run timeout events).1
  have hinv := TrackerSpec.Inv.init.run timeout events
  have hlookup := (hrefines.lookup_eq e.1).symm.trans (lookup_of_mem (Tracker.sorted _) he)
  obtain ⟨hist, hhist, hstate⟩ := Option.map_eq_some'.mp hlookup
  obtain ⟨hne, hkeys⟩ := hinv e.1 hist hhist
  have hkey := AircraftState.key_run (s := .init e.1.qualifier e.1.address) hist
  rw [← hstate]
  exact ⟨hist, hne, hkeys, rfl, hkey.1, hkey.2, (AircraftState.Inv.init _ _).run hist⟩

/-- A run of one batch holding one short frame of payload type 0, received at the clock. -/
theorem Tracker.run_entries_one_frame :
    let raw : RawMessage :=
      { type := .downlinkShort, payload := List.replicate 18 0, receivedAt := 20000, errors := 0,
        rssi := 0, rawTimestamp := 0, metadata := [] }
    ∃ e ∈ (Tracker.init.run 300000 [.handleMessages 20000 [raw]]).1.aircraft,
      ∃ hist, hist ≠ [] ∧ (∀ m ∈ hist, m.key = e.1) ∧ e.2 = e.1.stateOf hist ∧
        e.2.addressQualifier = e.1.qualifier ∧ e.2.address = e.1.address ∧ e.2.Inv := by
  intro raw
  obtain ⟨msg, hmsg⟩ := ofRaw_downlink_ok raw (.inr ⟨rfl, rfl, by decide⟩)
  have hacc : Tracker.accepts 20000 raw = true := by decide
  have hrun : (Tracker.init.run 300000 [.handleMessages 20000 [raw]]).1 =
      Tracker.init.handleMessage msg := by
    simp only [Tracker.run, runWith, handleMessagesWith, hacc, if_true, hmsg]
    rfl
  have hmem : (msg.key, (AircraftState.init msg.addressQualifier msg.address).updateFromMessage msg) ∈
      (Tracker.init.run 300000 [.handleMessages 20000 [raw]]).1.aircraft := by
    rw [hrun]
    exact List.mem_singleton_self _
  exact ⟨_, hmem, Tracker.run_entries 300000 _ _ hmem⟩

end Entries

/-! ### The clock test -/

/-- **The clock test of `HandleMessages`.** With the clock at least `PAST_FUZZ` and
`now + FUTURE_FUZZ` within `uint64_t`, a message passes exactly when it is a downlink frame
received at a nonzero time within `[now - 15000, now + 1000]`. With the clock below
`PAST_FUZZ`, `now - PAST_FUZZ` wraps around and no message passes. -/
theorem Tracker.accepts_iff (now : UInt64) (message : RawMessage) :
    (15000 ≤ now.toNat → now.toNat + 1000 < 2 ^ 64 →
      (Tracker.accepts now message = true ↔
        (message.type = .downlinkShort ∨ message.type = .downlinkLong) ∧
          0 < message.receivedAt.toNat ∧ now.toNat - 15000 ≤ message.receivedAt.toNat ∧
          message.receivedAt.toNat ≤ now.toNat + 1000)) ∧
    (now.toNat < 15000 → Tracker.accepts now message = false) := by
  have hr : message.receivedAt.toNat < 2 ^ 64 := message.receivedAt.toNat_lt_size
  have hz : message.receivedAt = 0 ↔ message.receivedAt.toNat = 0 :=
    ⟨fun h => h ▸ rfl, fun h => UInt64.toNat.inj h⟩
  have hsub : (now - pastFuzz).toNat = (2 ^ 64 - 15000 + now.toNat) % 2 ^ 64 :=
    uint64_toNat_sub now pastFuzz
  have hadd : (now + futureFuzz).toNat = (now.toNat + 1000) % 2 ^ 64 := UInt64.toNat_add _ _
  constructor
  · intro hlo hhi
    have hpast : (now - pastFuzz).toNat = now.toNat - 15000 := by rw [hsub]; omega
    have hfuture : (now + futureFuzz).toNat = now.toNat + 1000 := by rw [hadd]; omega
    simp only [Tracker.accepts, Bool.and_eq_true, decide_eq_true_eq, Bool.not_eq_true',
      decide_eq_false_iff_not, hz, uint64_lt_iff, gt_iff_lt, hpast, hfuture]
    exact and_congr_right fun _ => by omega
  · intro hlo
    have hpast : (now - pastFuzz).toNat = 2 ^ 64 - 15000 + now.toNat := by rw [hsub]; omega
    have hfuture : (now + futureFuzz).toNat = now.toNat + 1000 := by rw [hadd]; omega
    simp only [Tracker.accepts, Bool.and_eq_false_iff, decide_eq_false_iff_not,
      Bool.not_eq_false', decide_eq_true_eq, hz, uint64_lt_iff, gt_iff_lt, hpast, hfuture]
    exact .inr (by omega)

/-! ### Short frames that do not decode -/

section Loop

variable {σ : Type} (handle : σ → AdsbMessage → σ) (now : UInt64)

/-- The loop over a batch in two parts: the second part runs from where the first left the
state, unless the first threw. -/
theorem handleMessagesWith_append (s : σ) (l₁ l₂ : MessageVector) :
    handleMessagesWith handle now s (l₁ ++ l₂) =
      match handleMessagesWith handle now s l₁ with
      | (s', none) => handleMessagesWith handle now s' l₂
      | (s', some e) => (s', some e) := by
  induction l₁ generalizing s with
  | nil => rfl
  | cons message rest ih =>
    simp only [List.cons_append, handleMessagesWith]
    split
    · split
      · exact ih _
      · rfl
    · exact ih s

end Loop

/-- A `mapM` over two parts, the first of which succeeds element by element: the first part's
results, then the second's. -/
theorem mapM_append_of_ok {α β : Type} {f : α → Except StdException β} (l₁ : List α)
    (h : ∀ x ∈ l₁, ∃ y, f x = pure y) (l₂ : List α) :
    ∃ ys, (l₁ ++ l₂).mapM f = (ys ++ ·) <$> l₂.mapM f := by
  induction l₁ with
  | nil => exact ⟨[], by simp⟩
  | cons x rest ih =>
    obtain ⟨y, hy⟩ := h x (List.mem_cons_self _ _)
    obtain ⟨ys, hys⟩ := ih fun x hx => h x (List.mem_cons_of_mem _ hx)
    refine ⟨y :: ys, ?_⟩
    rw [List.cons_append, List.mapM_cons, hy, hys]
    cases l₂.mapM f <;> rfl

/-- **A short frame of payload type 1 to 6 is an exception wherever it is decoded.** An
18-byte `DOWNLINK_SHORT` payload whose payload type is 1 to 6 makes `AdsbMessage(message)`
throw `std::out_of_range`. So `Tracker::HandleMessages`, when the clock test passes it and
the messages before it threw nothing, stops there with that exception, the tracker as those
messages left it and the messages after it not handled; and `JsonOutput::InternalWrite`
throws it on any batch whose downlink messages before it decode. -/
theorem shortFrame_outOfRange (message : RawMessage) (hty : message.type = .downlinkShort)
    (hlen : message.payload.length = downlinkShortDataBytes)
    (hpt : 1 ≤ (message.payload.getD 0 0).toNat >>> 3 ∧
      (message.payload.getD 0 0).toNat >>> 3 ≤ 6) :
    AdsbMessage.ofRaw message = throw (.outOfRange "bit range exceeds available data") ∧
    (∀ (now : UInt64) (t : Tracker) (before after : MessageVector),
      Tracker.accepts now message = true → (t.handleMessages now before).2 = none →
      t.handleMessages now (before ++ message :: after) =
        ((t.handleMessages now before).1, some (.outOfRange "bit range exceeds available data"))) ∧
    (∀ (toJson : AdsbMessage → List Char) (before after : MessageVector),
      (∀ m ∈ before, m.type = .downlinkShort ∨ m.type = .downlinkLong →
        ∃ x, AdsbMessage.ofRaw m = pure x) →
      JsonOutput.internalWrite toJson (before ++ message :: after) =
        throw (.outOfRange "bit range exceeds available data")) := by
  have hthrow := ofRaw_short_throw message hty hlen hpt
  refine ⟨hthrow, fun now t before after hacc hbefore => ?_, fun toJson before after hok => ?_⟩
  · unfold Tracker.handleMessages at hbefore ⊢
    rw [handleMessagesWith_append]
    revert hbefore
    cases handleMessagesWith Tracker.handleMessage now t before with
    | mk t' e =>
      rintro (rfl : e = none)
      simp only [handleMessagesWith, hacc, if_true, hthrow]
  · have hdown : (message.type = .downlinkShort || message.type = .downlinkLong) = true := by
      simp [hty]
    obtain ⟨ys, hys⟩ := mapM_append_of_ok (f := fun m => (toJson · ++ ['\n']) <$> AdsbMessage.ofRaw m)
      (before.filter fun m => m.type = .downlinkShort || m.type = .downlinkLong)
      (fun m hm => by
        obtain ⟨hm, hd⟩ := List.mem_filter.mp hm
        obtain ⟨x, hx⟩ := hok m hm (by simpa using hd)
        exact ⟨_, by dsimp only; rw [hx]; rfl⟩)
      (message :: after.filter fun m => m.type = .downlinkShort || m.type = .downlinkLong)
    have hfilter : (before ++ message :: after).filter
        (fun m => m.type = .downlinkShort || m.type = .downlinkLong) =
        before.filter (fun m => m.type = .downlinkShort || m.type = .downlinkLong) ++
          message :: after.filter fun m => m.type = .downlinkShort || m.type = .downlinkLong := by
      simp only [List.filter_append, List.filter_cons, hdown, if_true]
    rw [JsonOutput.internalWrite, hfilter, hys, List.mapM_cons, hthrow]
    rfl

/-- A short frame of payload type 1 (`0x08`), received at the clock, in a batch of its own. -/
theorem shortFrame_outOfRange_type1 :
    let message : RawMessage :=
      { type := .downlinkShort, payload := 0x08 :: List.replicate 17 0, receivedAt := 20000,
        errors := 0, rssi := 0, rawTimestamp := 0, metadata := [] }
    message.type = .downlinkShort ∧ message.payload.length = downlinkShortDataBytes ∧
      (1 ≤ (message.payload.getD 0 0).toNat >>> 3 ∧ (message.payload.getD 0 0).toNat >>> 3 ≤ 6) ∧
      (AdsbMessage.ofRaw message = throw (.outOfRange "bit range exceeds available data") ∧
      (∀ (now : UInt64) (t : Tracker) (before after : MessageVector),
        Tracker.accepts now message = true → (t.handleMessages now before).2 = none →
        t.handleMessages now (before ++ message :: after) =
          ((t.handleMessages now before).1, some (.outOfRange "bit range exceeds available data"))) ∧
      (∀ (toJson : AdsbMessage → List Char) (before after : MessageVector),
        (∀ m ∈ before, m.type = .downlinkShort ∨ m.type = .downlinkLong →
          ∃ x, AdsbMessage.ofRaw m = pure x) →
        JsonOutput.internalWrite toJson (before ++ message :: after) =
          throw (.outOfRange "bit range exceeds available data"))) := by
  intro message
  have hty : message.type = .downlinkShort := rfl
  have hlen : message.payload.length = downlinkShortDataBytes := rfl
  have hpt : 1 ≤ (message.payload.getD 0 0).toNat >>> 3 ∧
      (message.payload.getD 0 0).toNat >>> 3 ≤ 6 := by decide
  exact ⟨hty, hlen, hpt, shortFrame_outOfRange message hty hlen hpt⟩

end Dump978
