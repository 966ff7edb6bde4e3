import Mathlib.Data.List.Nodup
import Dump978.Common

namespace Dump978

/-!
# Client dispatch — `MessageDispatch` (`message_dispatch.cc`)

`MessageDispatch` keeps the registered handlers in a `std::map` from handles to clients and
hands every batch of messages to each of them. A handler may call back into the dispatcher
while `Dispatch` runs it: add or remove clients, or dispatch again. So that the loop's iterator
stays valid, `RemoveClient` only marks a client deleted while a `Dispatch` is in progress
(`busy_ > 0`); `PurgeDeadClients` erases the marked clients once none is.

The calls in progress are an explicit stack of frames (`Frame`): the loop of a `Dispatch`
call, and a handler that loop invoked, with the calls the handler has still to make. A step
of the machine (`MessageDispatch.step`) is a call from outside, made when no call is in
progress (the mutex), or one step of the innermost call: one iteration of a loop, or the
handler's next call. What a handler does when it is invoked is chosen by the event, so every
result holds for every handler, including one that throws: the exception leaves the frames
above the first handler that catches it around a `Dispatch` call it made (`unwind`). The state
also keeps a history: the handlers invoked, those whose `RemoveClient` returned, and what every
finished loop saw.

Main results:

* `Registry.step`, `StackOk.step` — the map stays sorted and `busy_` is the number of
  `Dispatch` calls on the stack, in every run;
* `step_keeps_handles` — no entry is erased by a step after which `busy_ > 0`;
* `not_invoked_after_removeClient` — the handler of a client that a `RemoveClient` call
  found, from outside or from a handler, is invoked neither by that step nor by a later one;
* `Loops.step` — with at most `2^32` `AddClient` calls, every `Dispatch` that returns has
  invoked each client live when it began exactly once, unless it was removed first;
* `Purged.step` — when no handler throws, no deleted entry is left once `busy_` is `0`;
* `dispatch_invariants` — the five together over every run from the constructor;
* `dispatch_hypotheses_needed` — a handler that throws leaves a deleted entry behind, and
  once `next_handle_` has wrapped a `Dispatch` passes a client it should have invoked.
-/

/-- `MessageDispatch::Handle` (`unsigned`). -/
abbrev Handle := UInt32

/-- A call a handler makes while it runs: one of the three public methods, or throwing an
exception out of the handler. A `Dispatch` call is `catching` when the handler makes it inside
a `try` block that catches every exception. -/
inductive HandlerCall
  | addClient
  | removeClient (h : Handle)
  | dispatch (catching : Bool)
  | throw
  deriving DecidableEq, Repr

/-- Whether a call is a `Dispatch` made inside a `try` block that catches every exception. -/
def HandlerCall.catches : HandlerCall → Bool
  | .dispatch catching => catching
  | _ => false

/-- `MessageDispatch::Client`. A handler is named by the `AddClient` call that registered it:
the `n`-th call (from `0`) registers handler `n`. -/
structure Client where
  handler : Nat
  deleted : Bool
  deriving DecidableEq, Repr

/-- What the loop of one `Dispatch` call has seen: the clients live when it began (handle and
handler), the handlers it invoked, and those it passed because they were marked deleted. -/
structure DispatchLog where
  snapshot : List (Handle × Nat)
  invoked : List Nat
  skipped : List Nat
  deriving DecidableEq, Repr

/-- A frame of the call stack. -/
inductive Frame
  /-- The loop of a `Dispatch` call, its iterator on the client with handle `pos` (`none`:
  not started). -/
  | dispatch (pos : Option Handle) (log : DispatchLog)
  /-- A handler that the loop below it invoked, with the calls it has still to make;
  `catching` when the call it is making is inside a `try` block that catches every exception. -/
  | handler (calls : List HandlerCall) (catching : Bool)
  deriving DecidableEq, Repr

/-- The state of a `MessageDispatch`, the calls in progress and the history. -/
structure MessageDispatch where
  nextHandle : Handle
  busy : Nat
  /-- `clients_`, sorted by handle. -/
  clients : List (Handle × Client)
  /-- The calls in progress, innermost first. -/
  stack : List Frame
  /-- The number of `AddClient` calls so far. -/
  added : Nat
  /-- The handlers whose `RemoveClient` has returned, in order. -/
  removed : List Nat
  /-- Every handler invocation, in order. -/
  invocations : List Nat
  /-- The log of every `Dispatch` call that returned. -/
  finished : List DispatchLog
  deriving DecidableEq, Repr

/-- The number of `Dispatch` calls on a stack. -/
def dispatchDepth : List Frame → Nat
  | [] => 0
  | .dispatch _ _ :: rest => dispatchDepth rest + 1
  | .handler _ _ :: rest => dispatchDepth rest

/-- What an exception leaves of a stack whose top frame it leaves: it passes each `Dispatch`
frame (counted: its `BusyCounter` destructor decrements `busy_`) and each handler frame, up to
a handler that catches it around the call it is making, which goes on with its next call. -/
def unwind : List Frame → Nat × List Frame
  | [] => (0, [])
  | .dispatch _ _ :: rest => ((unwind rest).1 + 1, (unwind rest).2)
  | .handler calls catching :: rest =>
    if catching then (0, .handler calls false :: rest) else unwind rest

/-- Whether a loop whose iterator is on `pos` has passed the client with handle `k`. -/
def passedBy : Option Handle → Handle → Bool
  | none, _ => false
  | some j, k => k ≤ j

namespace MessageDispatch

/-- `MessageDispatch()`: `next_handle_(0)`, `busy_(0)`. -/
def init : MessageDispatch := ⟨0, 0, [], [], 0, [], [], []⟩

/-- `AddClient`: `Handle h = next_handle_++; clients_[h] = {handler, false};`. -/
def addClient (s : MessageDispatch) : MessageDispatch :=
  { s with nextHandle := s.nextHandle + 1, added := s.added + 1,
           clients := mapAssign s.clients s.nextHandle ⟨s.added, false⟩ }

/-- `PurgeDeadClients`: nothing while `busy_`, else erase every client marked deleted. -/
def purgeDeadClients (s : MessageDispatch) : MessageDispatch :=
  if s.busy ≠ 0 then s else { s with clients := s.clients.filter fun e => !e.2.deleted }

/-- `RemoveClient(h)`: mark the client deleted, then `PurgeDeadClients`. -/
def removeClient (s : MessageDispatch) (h : Handle) : MessageDispatch :=
  match s.clients.lookup h with
  | none => s
  | some c => purgeDeadClients { s with clients := mapAssign s.clients h { c with deleted := true },
                                        removed := s.removed ++ [c.handler] }

/-- The clients not marked deleted, with their handlers. -/
def liveClients (clients : List (Handle × Client)) : List (Handle × Nat) :=
  clients.filterMap fun e => if e.2.deleted then none else some (e.1, e.2.handler)

/-- `Dispatch` begins: `BusyCounter counter(busy_)` increments `busy_`, and the loop starts. -/
def beginDispatch (s : MessageDispatch) : MessageDispatch :=
  { s with busy := s.busy + 1,
           stack := .dispatch none ⟨liveClients s.clients, [], []⟩ :: s.stack }

/-- A call made on top of the stack `s.stack`. An exception thrown out of the handler on top
leaves the frames `unwind` passes: each `Dispatch` among them decrements `busy_` through its
`BusyCounter` destructor, and no `PurgeDeadClients` runs. -/
def call (s : MessageDispatch) : HandlerCall → MessageDispatch
  | .addClient => s.addClient
  | .removeClient h => s.removeClient h
  | .dispatch _ => s.beginDispatch
  | .throw => { s with busy := s.busy - (unwind s.stack).1, stack := (unwind s.stack).2 }

/-- The client the iterator moves to from `pos`: `clients_.begin()`, or `++i`. -/
def nextClient (clients : List (Handle × Client)) (pos : Option Handle) :
    Option (Handle × Client) :=
  clients.find? fun e => !passedBy pos e.1

/-- One iteration of the loop of the `Dispatch` frame on top of `rest`: invoke the next client
unless it is marked deleted (its handler will make the calls `body`), or at `end()`,
`counter.release()` and `PurgeDeadClients()`. -/
def loopStep (s : MessageDispatch) (pos : Option Handle) (log : DispatchLog) (rest : List Frame)
    (body : List HandlerCall) : MessageDispatch :=
  match nextClient s.clients pos with
  | none => purgeDeadClients { s with busy := s.busy - 1, stack := rest,
                                      finished := s.finished ++ [log] }
  | some (k, c) =>
    if c.deleted then
      { s with stack := .dispatch (some k) { log with skipped := log.skipped ++ [c.handler] } :: rest }
    else
      { s with stack := .handler body false :: .dispatch (some k) { log with invoked := log.invoked ++ [c.handler] } :: rest,
               invocations := s.invocations ++ [c.handler] }

end MessageDispatch

/-- An event: a call from outside any handler, or a step of the innermost call in progress,
where `body` is what a handler invoked by this step does. -/
inductive DispatchEvent
  | call (c : HandlerCall)
  | step (body : List HandlerCall)
  deriving DecidableEq, Repr

/-- Whether an event hands a handler an exception to throw. -/
def DispatchEvent.throws : DispatchEvent → Bool
  | .call _ => false
  | .step body => body.contains .throw

namespace MessageDispatch

/-- One step. A call from outside starts only when no call is in progress: the mutex makes
another thread wait until the outermost call returns. -/
def step (s : MessageDispatch) : DispatchEvent → MessageDispatch
  | .call c => if s.stack = [] then s.call c else s
  | .step body =>
    match s.stack with
    | [] => s
    | .dispatch pos log :: rest => s.loopStep pos log rest body
    | .handler [] _ :: rest => { s with stack := rest }
    | .handler (c :: calls) _ :: rest => { s with stack := .handler calls c.catches :: rest }.call c

/-- A run of events. -/
def run (s : MessageDispatch) (es : List DispatchEvent) : MessageDispatch := es.foldl step s

/-- The call a step makes: a call from outside that starts, or the next call of the handler on
top of the stack. -/
def stepCall (s : MessageDispatch) : DispatchEvent → Option HandlerCall
  | .call c => if s.stack = [] then some c else none
  | .step _ =>
    match s.stack with
    | .handler (c :: _) _ :: _ => some c
    | _ => none

@[simp] theorem run_nil (s : MessageDispatch) : s.run [] = s := rfl

@[simp] theorem run_cons (s : MessageDispatch) (e : DispatchEvent) (es : List DispatchEvent) :
    s.run (e :: es) = (s.step e).run es := rfl

theorem run_append (s : MessageDispatch) (es es' : List DispatchEvent) :
    s.run (es ++ es') = (s.run es).run es' := List.foldl_append _ _ _ _

end MessageDispatch

/-! ### `clients_` as a sorted association list -/

section SortedMap

variable {β : Type}

theorem handle_lt_iff {a b : Handle} : a < b ↔ a.toNat < b.toNat := Iff.rfl

theorem handle_le_iff {a b : Handle} : a ≤ b ↔ a.toNat ≤ b.toNat := Iff.rfl

theorem handle_eq_iff {a b : Handle} : a = b ↔ a.toNat = b.toNat :=
  ⟨congrArg _, UInt32.toNat.inj⟩

/-- The handles of a map increase strictly. -/
def HandlesSorted (m : List (Handle × β)) : Prop := m.Pairwise fun a b => a.1 < b.1

theorem mem_mapAssign_of_mem {m : List (Handle × β)} {k : Handle} {v : β} {e : Handle × β}
    (he : e ∈ mapAssign m k v) : e = (k, v) ∨ e ∈ m := by
  induction m with
  | nil => simpa [mapAssign] using he
  | cons a rest ih =>
    simp only [mapAssign] at he
    split_ifs at he <;> rcases List.mem_cons.1 he with rfl | he
    · exact .inl rfl
    · exact .inr (List.mem_cons_of_mem _ he)
    · exact .inl rfl
    · exact .inr he
    · exact .inr (List.mem_cons_self _ _)
    · exact (ih he).imp_right (List.mem_cons_of_mem _)

theorem mem_self_mapAssign (m : List (Handle × β)) (k : Handle) (v : β) :
    (k, v) ∈ mapAssign m k v := by
  induction m with
  | nil => simp [mapAssign]
  | cons a rest ih => simp only [mapAssign]; split_ifs <;> simp [ih]

theorem mem_mapAssign_of_ne {m : List (Handle × β)} {k : Handle} {v : β} {e : Handle × β}
    (he : e ∈ m) (hk : e.1 ≠ k) : e ∈ mapAssign m k v := by
  induction m with
  | nil => cases he
  | cons a rest ih =>
    simp only [mapAssign]
    rcases List.mem_cons.1 he with rfl | he
    · split_ifs with heq
      · exact absurd heq.symm hk
      · simp
      · simp
    · split_ifs <;> simp [he, ih he]

theorem HandlesSorted.mapAssign {m : List (Handle × β)} (k : Handle) (v : β)
    (hs : HandlesSorted m) : HandlesSorted (mapAssign m k v) := by
  induction m with
  | nil => simp [Dump978.mapAssign, HandlesSorted]
  | cons a rest ih =>
    obtain ⟨hlt, hs⟩ := List.pairwise_cons.1 hs
    simp only [Dump978.mapAssign]
    split_ifs with heq hlt'
    · subst heq; exact List.pairwise_cons.2 ⟨hlt, hs⟩
    · exact List.pairwise_cons.2 ⟨fun x hx => by
        rcases List.mem_cons.1 hx with rfl | hx
        · exact hlt'
        · have := hlt x hx; simp only [handle_lt_iff] at *; omega, List.pairwise_cons.2 ⟨hlt, hs⟩⟩
    · refine List.pairwise_cons.2 ⟨fun x hx => ?_, ih hs⟩
      rcases mem_mapAssign_of_mem hx with rfl | hx
      · have : a.1 ≠ k := fun h => heq h.symm
        simp only [handle_lt_iff, handle_eq_iff] at *; omega
      · exact hlt x hx

/-- In a sorted map a handle has one entry. -/
theorem HandlesSorted.unique {m : List (Handle × β)} (hs : HandlesSorted m) {a b : Handle × β}
    (ha : a ∈ m) (hb : b ∈ m) (hab : a.1 = b.1) : a = b := by
  induction m with
  | nil => cases ha
  | cons x rest ih =>
    obtain ⟨hlt, hs⟩ := List.pairwise_cons.1 hs
    rcases List.mem_cons.1 ha with ha' | ha' <;> rcases List.mem_cons.1 hb with hb' | hb'
    · rw [ha', hb']
    · have := hlt b hb'; rw [← ha', handle_lt_iff, ← hab] at this; omega
    · have := hlt a ha'; rw [← hb', handle_lt_iff, hab] at this; omega
    · exact ih hs ha' hb'

/-- `m[k] = v` on a sorted map: the entry for `k` is `v`, every other entry stays. -/
theorem mem_mapAssign {m : List (Handle × β)} {k : Handle} {v : β} {e : Handle × β}
    (hs : HandlesSorted m) : e ∈ mapAssign m k v ↔ e = (k, v) ∨ e ∈ m ∧ e.1 ≠ k := by
  refine ⟨fun he => ?_, ?_⟩
  · rcases mem_mapAssign_of_mem he with rfl | hm
    · exact .inl rfl
    · by_cases hk : e.1 = k
      · exact .inl ((hs.mapAssign k v).unique he (mem_self_mapAssign m k v) hk)
      · exact .inr ⟨hm, hk⟩
  · rintro (rfl | ⟨hm, hk⟩)
    · exact mem_self_mapAssign m k v
    · exact mem_mapAssign_of_ne hm hk

/-- `clients_.find(h)` found the entry `(h, c)`. -/
theorem mem_of_lookup_eq_some {m : List (Handle × β)} {k : Handle} {v : β}
    (h : m.lookup k = some v) : (k, v) ∈ m := by
  obtain ⟨l₁, l₂, rfl, -⟩ := List.lookup_eq_some_iff.1 h
  exact List.mem_append_right _ (List.mem_cons_self _ _)

end SortedMap

namespace MessageDispatch

variable {s : MessageDispatch}

/-! ### What the calls change -/

theorem purgeDeadClients_of_busy (h : s.busy ≠ 0) : s.purgeDeadClients = s := if_pos h

@[simp] theorem purgeDeadClients_busy : s.purgeDeadClients.busy = s.busy := by
  unfold purgeDeadClients; split <;> rfl

@[simp] theorem purgeDeadClients_stack : s.purgeDeadClients.stack = s.stack := by
  unfold purgeDeadClients; split <;> rfl

@[simp] theorem purgeDeadClients_added : s.purgeDeadClients.added = s.added := by
  unfold purgeDeadClients; split <;> rfl

@[simp] theorem purgeDeadClients_invocations :
    s.purgeDeadClients.invocations = s.invocations := by
  unfold purgeDeadClients; split <;> rfl

@[simp] theorem purgeDeadClients_finished : s.purgeDeadClients.finished = s.finished := by
  unfold purgeDeadClients; split <;> rfl

@[simp] theorem purgeDeadClients_removed : s.purgeDeadClients.removed = s.removed := by
  unfold purgeDeadClients; split <;> rfl

/-- `PurgeDeadClients` erases entries, and only marked ones. -/
theorem purgeDeadClients_clients_sublist : List.Sublist s.purgeDeadClients.clients s.clients := by
  unfold purgeDeadClients; split
  · exact List.Sublist.refl _
  · exact List.filter_sublist _

/-- `RemoveClient` changes `clients_` and the history of removals only. -/
theorem removeClient_eq (h : Handle) :
    ∃ clients removed, s.removeClient h = { s with clients := clients, removed := removed } := by
  unfold removeClient
  split
  · exact ⟨s.clients, s.removed, rfl⟩
  · unfold purgeDeadClients; split
    · exact ⟨_, _, rfl⟩
    · exact ⟨_, _, rfl⟩

@[simp] theorem removeClient_busy (h : Handle) : (s.removeClient h).busy = s.busy := by
  obtain ⟨_, _, he⟩ := removeClient_eq (s := s) h; rw [he]

@[simp] theorem removeClient_stack (h : Handle) : (s.removeClient h).stack = s.stack := by
  obtain ⟨_, _, he⟩ := removeClient_eq (s := s) h; rw [he]

@[simp] theorem removeClient_added (h : Handle) : (s.removeClient h).added = s.added := by
  obtain ⟨_, _, he⟩ := removeClient_eq (s := s) h; rw [he]

@[simp] theorem removeClient_invocations (h : Handle) :
    (s.removeClient h).invocations = s.invocations := by
  obtain ⟨_, _, he⟩ := removeClient_eq (s := s) h; rw [he]

/-! ### The registry -/

/-- What holds of `clients_`, `next_handle_` and the handlers in every reachable state: the map
is sorted, every handler is registered under one handle and was given out by an `AddClient`,
a removed handler is marked deleted, and while at most `2^32` handles were given out every
handle in use is below the next one. -/
structure Registry (s : MessageDispatch) : Prop where
  sorted : HandlesSorted s.clients
  nextHandle_eq : s.nextHandle.toNat = s.added % 2 ^ 32
  handler_lt : ∀ e ∈ s.clients, e.2.handler < s.added
  handler_inj : ∀ a ∈ s.clients, ∀ b ∈ s.clients, a.2.handler = b.2.handler → a.1 = b.1
  removed_lt : ∀ g ∈ s.removed, g < s.added
  deleted_of_removed : ∀ e ∈ s.clients, e.2.handler ∈ s.removed → e.2.deleted = true
  handle_lt : s.added ≤ 2 ^ 32 → ∀ e ∈ s.clients, e.1.toNat < s.added

theorem Registry.init : Registry init :=
  ⟨List.Pairwise.nil, rfl, nofun, nofun, nofun, nofun, fun _ => nofun⟩

/-- Erasing entries keeps the registry. -/
theorem Registry.sublist {t : MessageDispatch} (hr : Registry s) (hsub : List.Sublist t.clients s.clients)
    (hn : t.nextHandle = s.nextHandle) (ha : t.added = s.added) (hrm : t.removed = s.removed) :
    Registry t where
  sorted := List.Pairwise.sublist hsub hr.sorted
  nextHandle_eq := by rw [hn, ha]; exact hr.nextHandle_eq
  handler_lt e he := ha ▸ hr.handler_lt e (hsub.subset he)
  handler_inj a ha' b hb := hr.handler_inj a (hsub.subset ha') b (hsub.subset hb)
  removed_lt g hg := ha ▸ hr.removed_lt g (hrm ▸ hg)
  deleted_of_removed e he hg := hr.deleted_of_removed e (hsub.subset he) (hrm ▸ hg)
  handle_lt hadd e he := ha ▸ hr.handle_lt (ha ▸ hadd) e (hsub.subset he)

theorem Registry.purgeDeadClients (hr : Registry s) : Registry s.purgeDeadClients :=
  hr.sublist purgeDeadClients_clients_sublist (by unfold MessageDispatch.purgeDeadClients; split <;> rfl)
    purgeDeadClients_added purgeDeadClients_removed

theorem Registry.addClient (hr : Registry s) : Registry s.addClient := by
  have hmem : ∀ e ∈ s.addClient.clients, e = (s.nextHandle, ⟨s.added, false⟩) ∨ e ∈ s.clients :=
    fun e he => mem_mapAssign_of_mem he
  have hlt := hr.handler_lt
  refine ⟨hr.sorted.mapAssign _ _, ?_, fun e he => ?_, fun a ha b hb hab => ?_, fun g hg => ?_,
    fun e he hg => ?_, fun hadd e he => ?_⟩
  · show (s.nextHandle.toNat + 1) % 2 ^ 32 = (s.added + 1) % 2 ^ 32
    rw [hr.nextHandle_eq]; omega
  · rcases hmem e he with rfl | he
    · exact Nat.lt_succ_self _
    · exact Nat.lt_succ_of_lt (hlt e he)
  · rcases hmem a ha with rfl | ha <;> rcases hmem b hb with rfl | hb
    · rfl
    · exact absurd hab (hlt b hb).ne'
    · exact absurd hab (hlt a ha).ne
    · exact hr.handler_inj a ha b hb hab
  · exact Nat.lt_succ_of_lt (hr.removed_lt g hg)
  · rcases hmem e he with rfl | he
    · exact absurd (hr.removed_lt _ hg) (Nat.lt_irrefl _)
    · exact hr.deleted_of_removed e he hg
  · have hadd' : s.added < 2 ^ 32 := by simp only [MessageDispatch.addClient] at hadd; omega
    rcases hmem e he with rfl | he
    · show s.nextHandle.toNat < s.added + 1
      rw [hr.nextHandle_eq, Nat.mod_eq_of_lt hadd']; omega
    · exact Nat.lt_succ_of_lt (hr.handle_lt hadd'.le e he)

/-- `RemoveClient` marks the client it found; the purge that follows is `Registry.purgeDeadClients`. -/
theorem Registry.mark (hr : Registry s) {h : Handle} {c : Client}
    (hc : s.clients.lookup h = some c) :
    Registry { s with clients := mapAssign s.clients h { c with deleted := true },
                      removed := s.removed ++ [c.handler] } := by
  have hhc := mem_of_lookup_eq_some hc
  have hmem : ∀ e ∈ mapAssign s.clients h { c with deleted := true },
      e = (h, { c with deleted := true }) ∨ e ∈ s.clients ∧ e.1 ≠ h :=
    fun e he => (mem_mapAssign hr.sorted).1 he
  refine ⟨hr.sorted.mapAssign _ _, hr.nextHandle_eq, fun e he => ?_, fun a ha b hb hab => ?_,
    fun g hg => ?_, fun e he hg => ?_, fun hadd e he => ?_⟩
  · rcases hmem e he with rfl | ⟨he, -⟩
    · exact hr.handler_lt (h, c) hhc
    · exact hr.handler_lt e he
  · rcases hmem a ha with rfl | ⟨ha, -⟩ <;> rcases hmem b hb with rfl | ⟨hb, -⟩
    · rfl
    · exact hr.handler_inj (h, c) hhc b hb hab
    · exact hr.handler_inj a ha (h, c) hhc hab
    · exact hr.handler_inj a ha b hb hab
  · rcases List.mem_append.1 hg with hg | hg
    · exact hr.removed_lt g hg
    · rw [List.mem_singleton.1 hg]; exact hr.handler_lt (h, c) hhc
  · rcases hmem e he with rfl | ⟨he, hne⟩
    · rfl
    · rcases List.mem_append.1 hg with hg | hg
      · exact hr.deleted_of_removed e he hg
      · exact absurd (hr.handler_inj e he (h, c) hhc (List.mem_singleton.1 hg)) hne
  · rcases hmem e he with rfl | ⟨he, -⟩
    · exact hr.handle_lt hadd (h, c) hhc
    · exact hr.handle_lt hadd e he

theorem Registry.removeClient (hr : Registry s) (h : Handle) : Registry (s.removeClient h) := by
  unfold MessageDispatch.removeClient
  split
  · exact hr
  · exact (hr.mark ‹_›).purgeDeadClients

/-! ### One step -/

/-- What one step does: nothing, a call from outside, an iteration of the innermost loop, the
return of the innermost handler, or that handler's next call. -/
theorem step_cases (s : MessageDispatch) (e : DispatchEvent) :
    s.step e = s ∨
    (∃ c, s.stack = [] ∧ s.step e = s.call c) ∨
    (∃ pos log rest body, e = .step body ∧ s.stack = .dispatch pos log :: rest ∧
      s.step e = s.loopStep pos log rest body) ∨
    (∃ rest b, s.stack = .handler [] b :: rest ∧ s.step e = { s with stack := rest }) ∨
    (∃ c calls b rest, s.stack = .handler (c :: calls) b :: rest ∧
      s.step e = { s with stack := .handler calls c.catches :: rest }.call c) := by
  cases e with
  | call c =>
    by_cases hs : s.stack = []
    · exact .inr (.inl ⟨c, hs, if_pos hs⟩)
    · exact .inl (if_neg hs)
  | step body =>
    match hs : s.stack with
    | [] => exact .inl (by simp only [step, hs])
    | .dispatch pos log :: rest => exact .inr (.inr (.inl ⟨pos, log, rest, body, rfl, rfl, by simp only [step, hs]⟩))
    | .handler [] b :: rest => exact .inr (.inr (.inr (.inl ⟨rest, b, rfl, by simp only [step, hs]⟩)))
    | .handler (c :: calls) b :: rest =>
      exact .inr (.inr (.inr (.inr ⟨c, calls, b, rest, rfl, by simp only [step, hs]⟩)))

theorem added_le_call (s : MessageDispatch) (c : HandlerCall) : s.added ≤ (s.call c).added := by
  cases c <;> simp [call, addClient, beginDispatch]

theorem added_le_step (s : MessageDispatch) (e : DispatchEvent) : s.added ≤ (s.step e).added := by
  rcases step_cases s e with h | ⟨c, -, h⟩ | ⟨pos, log, rest, body, -, -, h⟩ | ⟨rest, _, -, h⟩ |
    ⟨c, calls, _, rest, -, h⟩ <;> rw [h]
  · exact added_le_call s c
  · unfold loopStep; split
    · simp
    · split <;> exact le_rfl
  · exact added_le_call { s with stack := .handler calls c.catches :: rest } c

/-! ### The call stack -/

/-- Every handler frame sits on the loop that invoked it. -/
inductive HandlersOnLoops : List Frame → Prop
  | nil : HandlersOnLoops []
  | dispatch {pos log rest} : HandlersOnLoops rest → HandlersOnLoops (.dispatch pos log :: rest)
  | handler {calls catching pos log rest} : HandlersOnLoops (.dispatch pos log :: rest) →
      HandlersOnLoops (.handler calls catching :: .dispatch pos log :: rest)

/-- The frames an exception passes hold the `Dispatch` calls it leaves. -/
theorem dispatchDepth_unwind (st : List Frame) :
    dispatchDepth st = (unwind st).1 + dispatchDepth (unwind st).2 := by
  induction st with
  | nil => rfl
  | cons f rest ih =>
    cases f with
    | dispatch pos log => simp only [unwind, dispatchDepth, ih]; omega
    | handler calls catching => cases catching <;> simp [unwind, dispatchDepth, ih]

theorem HandlersOnLoops.unwind {st : List Frame} (h : HandlersOnLoops st) :
    HandlersOnLoops (unwind st).2 := by
  induction h with
  | nil => exact .nil
  | dispatch _ ih => exact ih
  | @handler _ catching _ _ _ h ih => cases catching; exacts [ih, .handler h]

/-- What is left after an exception is the stack below some frame, but for the flag of the
handler that caught it. -/
theorem mem_unwind {st : List Frame} {f : Frame} (hf : f ∈ (unwind st).2) :
    f ∈ st ∨ ∃ calls, f = .handler calls false ∧ ∃ catching, .handler calls catching ∈ st := by
  induction st with
  | nil => exact absurd hf (List.not_mem_nil _)
  | cons g rest ih =>
    have hrest : f ∈ (unwind rest).2 → f ∈ g :: rest ∨
        ∃ calls, f = .handler calls false ∧ ∃ catching, .handler calls catching ∈ g :: rest :=
      fun hf => (ih hf).imp (List.mem_cons_of_mem _) fun ⟨calls, he, b, hb⟩ =>
        ⟨calls, he, b, List.mem_cons_of_mem _ hb⟩
    cases g with
    | dispatch pos log => exact hrest hf
    | handler calls catching =>
      cases catching
      · exact hrest hf
      · rcases List.mem_cons.1 hf with rfl | hf
        · exact .inr ⟨calls, rfl, true, List.mem_cons_self _ _⟩
        · exact .inl (List.mem_cons_of_mem _ hf)

/-- `busy_` is the number of `Dispatch` calls on the stack, and every handler frame sits on
the loop that invoked it. -/
structure StackOk (s : MessageDispatch) : Prop where
  busy_eq : s.busy = dispatchDepth s.stack
  shape : HandlersOnLoops s.stack

theorem StackOk.init : StackOk init := ⟨rfl, .nil⟩

theorem StackOk.of_eq {t : MessageDispatch} (h : StackOk s) (hb : t.busy = s.busy)
    (hs : t.stack = s.stack) : StackOk t :=
  ⟨by rw [hb, hs]; exact h.busy_eq, hs ▸ h.shape⟩

/-- A handler frame's calls do not matter to the stack's shape or depth. -/
theorem StackOk.handler {calls calls' : List HandlerCall} {b b' : Bool} {rest : List Frame}
    (h : StackOk s) (hs : s.stack = .handler calls b :: rest) :
    StackOk { s with stack := .handler calls' b' :: rest } := by
  obtain ⟨hb, hsh⟩ := h
  rw [hs] at hb hsh
  cases hsh with
  | handler hsh => exact ⟨hb, .handler hsh⟩

theorem StackOk.call (h : StackOk s) (c : HandlerCall) : StackOk (s.call c) := by
  cases c with
  | addClient => exact h.of_eq rfl rfl
  | removeClient h' => exact h.of_eq (removeClient_busy h') (removeClient_stack h')
  | dispatch => exact ⟨by simp [MessageDispatch.call, beginDispatch, dispatchDepth, h.busy_eq], .dispatch h.shape⟩
  | throw =>
    refine ⟨?_, h.shape.unwind⟩
    show s.busy - (unwind s.stack).1 = _
    rw [h.busy_eq, dispatchDepth_unwind s.stack, Nat.add_sub_cancel_left]
    rfl

theorem StackOk.loopStep {pos : Option Handle} {log : DispatchLog} {rest : List Frame}
    (h : StackOk s) (hs : s.stack = .dispatch pos log :: rest) (body : List HandlerCall) :
    StackOk (s.loopStep pos log rest body) := by
  obtain ⟨hb, hsh⟩ := h
  rw [hs] at hb hsh
  simp only [dispatchDepth] at hb
  cases hsh with
  | dispatch hsh =>
    unfold MessageDispatch.loopStep
    split
    · exact StackOk.of_eq (s := { s with busy := s.busy - 1, stack := rest }) ⟨by simp [hb], hsh⟩
        purgeDeadClients_busy purgeDeadClients_stack
    · split
      · exact ⟨hb, .dispatch hsh⟩
      · exact ⟨hb, .handler (.dispatch hsh)⟩

theorem StackOk.step (h : StackOk s) (e : DispatchEvent) : StackOk (s.step e) := by
  rcases step_cases s e with he | ⟨c, -, he⟩ | ⟨pos, log, rest, body, -, hs, he⟩ | ⟨rest, _, hs, he⟩ |
    ⟨c, calls, _, rest, hs, he⟩ <;> rw [he]
  · exact h
  · exact h.call c
  · exact h.loopStep hs body
  · obtain ⟨hb, hsh⟩ := h
    rw [hs] at hb hsh
    cases hsh with
    | handler hsh => exact ⟨hb, hsh⟩
  · exact (h.handler hs).call c

theorem Registry.call (hr : Registry s) (c : HandlerCall) : Registry (s.call c) := by
  cases c with
  | addClient => exact hr.addClient
  | removeClient h => exact hr.removeClient h
  | dispatch => exact hr.sublist (.refl _) rfl rfl rfl
  | throw => exact hr.sublist (.refl _) rfl rfl rfl

theorem Registry.step (hr : Registry s) (e : DispatchEvent) : Registry (s.step e) := by
  rcases step_cases s e with he | ⟨c, -, he⟩ | ⟨pos, log, rest, body, -, -, he⟩ | ⟨rest, _, -, he⟩ |
    ⟨c, calls, _, rest, -, he⟩ <;> rw [he]
  · exact hr
  · exact hr.call c
  · unfold loopStep
    split
    · exact Registry.purgeDeadClients (hr.sublist (.refl _) rfl rfl rfl)
    · split <;> exact hr.sublist (.refl _) rfl rfl rfl
  · exact hr.sublist (.refl _) rfl rfl rfl
  · exact Registry.call (s := { s with stack := .handler calls c.catches :: rest }) (hr.sublist (.refl _) rfl rfl rfl) c

/-! ### The loops -/

theorem passedBy_advance {pos : Option Handle} {k j : Handle} (hk : passedBy pos k = false)
    (hj : passedBy pos j = true) : passedBy (some k) j = true := by
  cases pos with
  | none => cases hj
  | some p =>
    simp only [passedBy, decide_eq_true_eq, decide_eq_false_iff_not, handle_le_iff] at *
    omega

theorem passedBy_some_self (k : Handle) : passedBy (some k) k = true := by
  simp [passedBy, handle_le_iff]

/-- The iterator moves to the first client it has not passed, and in a sorted map that is the
one with the least handle. -/
theorem nextClient_some {clients : List (Handle × Client)} {pos : Option Handle} {k : Handle}
    {c : Client} (hs : HandlesSorted clients) (h : nextClient clients pos = some (k, c)) :
    (k, c) ∈ clients ∧ passedBy pos k = false ∧
      ∀ e ∈ clients, passedBy pos e.1 = false → k ≤ e.1 := by
  obtain ⟨hk, as, bs, rfl, has⟩ := List.find?_eq_some.1 h
  refine ⟨List.mem_append_right _ (List.mem_cons_self _ _), by simpa using hk, fun e he hpe => ?_⟩
  rcases List.mem_append.1 he with he | he
  · have := has e he
    simp [hpe] at this
  · rcases List.mem_cons.1 he with rfl | he
    · exact handle_le_iff.2 (Nat.le_refl _)
    · have := (List.pairwise_cons.1 (List.pairwise_append.1 hs).2.1).1 e he
      exact handle_le_iff.2 (Nat.le_of_lt this)

theorem nextClient_none {clients : List (Handle × Client)} {pos : Option Handle}
    (h : nextClient clients pos = none) : ∀ e ∈ clients, passedBy pos e.1 = true := by
  intro e he
  simpa using List.find?_eq_none.1 h e he

/-- Every entry of `m` is in `m'` under the same handle with the same handler. -/
def KeepsHandlers (m m' : List (Handle × Client)) : Prop :=
  ∀ k g d, (k, ⟨g, d⟩) ∈ m → ∃ d', (k, ⟨g, d'⟩) ∈ m'

/-- A `Dispatch` loop on course: every client live when it began that the iterator has not
passed is still registered under its handle with its handler; every one passed was invoked or
skipped; and the handlers it reached are distinct, each registered at a handle it passed. -/
structure LoopOk (clients : List (Handle × Client)) (pos : Option Handle) (log : DispatchLog) :
    Prop where
  ahead : ∀ p ∈ log.snapshot, passedBy pos p.1 = false → ∃ d, (p.1, ⟨p.2, d⟩) ∈ clients
  behind : ∀ p ∈ log.snapshot, passedBy pos p.1 = true → p.2 ∈ log.invoked ++ log.skipped
  reached_nodup : (log.invoked ++ log.skipped).Nodup
  reached : ∀ g ∈ log.invoked ++ log.skipped,
    ∃ k d, (k, ⟨g, d⟩) ∈ clients ∧ passedBy pos k = true

end MessageDispatch

/-- A finished loop invoked every client live when it began exactly once, unless the loop
found it marked deleted, and then not at all. -/
def DispatchLog.Complete (log : DispatchLog) : Prop :=
  ∀ p ∈ log.snapshot, log.invoked.count p.2 = if p.2 ∈ log.skipped then 0 else 1

namespace MessageDispatch

variable {s : MessageDispatch}

theorem LoopOk.keeps {m m' : List (Handle × Client)} {pos : Option Handle} {log : DispatchLog}
    (h : LoopOk m pos log) (hk : KeepsHandlers m m') : LoopOk m' pos log where
  ahead p hp hpos := let ⟨_, hd⟩ := h.ahead p hp hpos; hk _ _ _ hd
  behind := h.behind
  reached_nodup := h.reached_nodup
  reached g hg :=
    let ⟨k, _, hd, hpos⟩ := h.reached g hg
    let ⟨d', hd'⟩ := hk _ _ _ hd
    ⟨k, d', hd', hpos⟩

theorem LoopOk.start (clients : List (Handle × Client)) :
    LoopOk clients none ⟨liveClients clients, [], []⟩ where
  ahead p hp _ := by
    obtain ⟨⟨k, g, d⟩, he, hp⟩ := List.mem_filterMap.1 hp
    cases d
    · cases hp; exact ⟨false, he⟩
    · cases hp
  behind _ _ h := nomatch h
  reached_nodup := List.nodup_nil
  reached _ h := nomatch h

/-- An iteration that reaches the client `(k, c)` keeps its loop on course, whether it invokes
the handler or skips it. -/
theorem LoopOk.advance {clients : List (Handle × Client)} {pos : Option Handle} {k : Handle}
    {c : Client} {log log' : DispatchLog} (hs : HandlesSorted clients)
    (hinj : ∀ a ∈ clients, ∀ b ∈ clients, a.2.handler = b.2.handler → a.1 = b.1)
    (h : LoopOk clients pos log) (hnext : nextClient clients pos = some (k, c))
    (hsnap : log'.snapshot = log.snapshot)
    (hperm : (log'.invoked ++ log'.skipped).Perm (log.invoked ++ log.skipped ++ [c.handler])) :
    LoopOk clients (some k) log' := by
  obtain ⟨hkc, hk, hmin⟩ := nextClient_some hs hnext
  have hmem : ∀ g, g ∈ log'.invoked ++ log'.skipped ↔ g ∈ log.invoked ++ log.skipped ∨ g = c.handler :=
    fun g => by rw [hperm.mem_iff]; simp [or_assoc]
  have hnew : c.handler ∉ log.invoked ++ log.skipped := fun hg => by
    obtain ⟨k', d, hd, hpos⟩ := h.reached _ hg
    have := hinj _ hd _ hkc rfl
    simp only at this
    rw [this, hk] at hpos
    cases hpos
  refine ⟨fun p hp hpos => h.ahead p (hsnap ▸ hp) ?_, fun p hp hpos => (hmem _).2 ?_,
    hperm.nodup_iff.2 (List.nodup_append.2 ⟨h.reached_nodup, List.nodup_singleton _,
      fun g hg hg' => hnew (List.mem_singleton.1 hg' ▸ hg)⟩), fun g hg => ?_⟩
  · cases hp' : passedBy pos p.1
    · rfl
    · rw [passedBy_advance hk hp'] at hpos; cases hpos
  · cases hp' : passedBy pos p.1
    · obtain ⟨d, hd⟩ := h.ahead p (hsnap ▸ hp) hp'
      have hle : k ≤ p.1 := hmin _ hd hp'
      simp only [passedBy, decide_eq_true_eq] at hpos
      have hkey : k = p.1 := handle_eq_iff.2 (by rw [handle_le_iff] at hle hpos; omega)
      have := hs.unique hkc hd hkey
      exact .inr (by simp only [Prod.mk.injEq] at this; rw [this.2])
    · exact .inl (h.behind p (hsnap ▸ hp) hp')
  · rcases (hmem g).1 hg with hg | rfl
    · obtain ⟨k', d, hd, hpos⟩ := h.reached g hg
      exact ⟨k', d, hd, passedBy_advance hk hpos⟩
    · exact ⟨k, c.deleted, hkc, passedBy_some_self k⟩

/-- A loop that finds no client it has not passed has done what `Complete` asks. -/
theorem LoopOk.complete {clients : List (Handle × Client)} {pos : Option Handle}
    {log : DispatchLog} (h : LoopOk clients pos log) (hend : nextClient clients pos = none) :
    log.Complete := by
  intro p hp
  have hpassed : passedBy pos p.1 = true := by
    cases hp' : passedBy pos p.1
    · obtain ⟨d, hd⟩ := h.ahead p hp hp'
      rw [← hp']; exact nextClient_none hend _ hd
    · rfl
  have hreach := h.behind p hp hpassed
  obtain ⟨hinv, -, hdisj⟩ := List.nodup_append.1 h.reached_nodup
  split
  · exact List.count_eq_zero_of_not_mem fun hi => hdisj hi ‹_›
  · exact List.count_eq_one_of_mem hinv ((List.mem_append.1 hreach).resolve_right ‹_›)

/-- Every `Dispatch` on the stack is on course, and every one that returned was complete. -/
structure Loops (s : MessageDispatch) : Prop where
  running : ∀ pos log, Frame.dispatch pos log ∈ s.stack → LoopOk s.clients pos log
  finished : ∀ log ∈ s.finished, log.Complete

theorem Loops.init : Loops init := ⟨fun _ _ => nofun, nofun⟩

theorem Loops.of_keeps {t : MessageDispatch} (hl : Loops s)
    (hk : KeepsHandlers s.clients t.clients)
    (hst : ∀ pos log, Frame.dispatch pos log ∈ t.stack → Frame.dispatch pos log ∈ s.stack)
    (hf : t.finished = s.finished) : Loops t :=
  ⟨fun pos log hm => (hl.running pos log (hst pos log hm)).keeps hk, hf ▸ hl.finished⟩

theorem keepsHandlers_refl (m : List (Handle × Client)) : KeepsHandlers m m :=
  fun _ _ d h => ⟨d, h⟩

theorem not_mem_of_dispatchDepth_eq_zero {st : List Frame} (h : dispatchDepth st = 0)
    (pos : Option Handle) (log : DispatchLog) : Frame.dispatch pos log ∉ st := by
  induction st with
  | nil => nofun
  | cons f rest ih =>
    cases f with
    | dispatch => simp [dispatchDepth] at h
    | handler calls =>
      simp only [dispatchDepth] at h
      simpa using ih h

theorem Loops.purgeDeadClients (hst : StackOk s) (hl : Loops s) : Loops s.purgeDeadClients := by
  by_cases hb : s.busy = 0
  · exact ⟨fun pos log hm => absurd (purgeDeadClients_stack ▸ hm)
      (not_mem_of_dispatchDepth_eq_zero (hst.busy_eq ▸ hb) pos log),
      by rw [purgeDeadClients_finished]; exact hl.finished⟩
  · rw [purgeDeadClients_of_busy hb]; exact hl

theorem Loops.addClient (hr : Registry s) (hl : Loops s) (hadd : s.added < 2 ^ 32) :
    Loops s.addClient := by
  refine hl.of_keeps (fun k g d hd => ⟨d, (mem_mapAssign hr.sorted).2 (.inr ⟨hd, fun hk => ?_⟩)⟩)
    (fun _ _ => id) rfl
  have := hr.handle_lt hadd.le _ hd
  simp only at hk
  rw [hk, hr.nextHandle_eq, Nat.mod_eq_of_lt hadd] at this
  exact Nat.lt_irrefl _ this

theorem Loops.removeClient (hr : Registry s) (hst : StackOk s) (hl : Loops s) (h : Handle) :
    Loops (s.removeClient h) := by
  unfold MessageDispatch.removeClient
  split
  · exact hl
  · rename_i c hc
    have hhc := mem_of_lookup_eq_some hc
    refine Loops.purgeDeadClients (hst.of_eq rfl rfl) (hl.of_keeps (fun k g d hd => ?_)
      (fun _ _ => id) rfl)
    by_cases hk : k = h
    · have := hr.sorted.unique hd hhc hk
      simp only [Prod.mk.injEq] at this
      refine ⟨true, (mem_mapAssign hr.sorted).2 (.inl ?_)⟩
      rw [this.1, ← this.2]
    · exact ⟨d, (mem_mapAssign hr.sorted).2 (.inr ⟨hd, hk⟩)⟩

theorem Loops.call (hr : Registry s) (hst : StackOk s) (hl : Loops s) (c : HandlerCall)
    (hadd : (s.call c).added ≤ 2 ^ 32) : Loops (s.call c) := by
  cases c with
  | addClient => exact hl.addClient hr (by simp only [MessageDispatch.call, MessageDispatch.addClient] at hadd; omega)
  | removeClient h => exact hl.removeClient hr hst h
  | dispatch =>
    refine ⟨fun pos log hm => ?_, hl.finished⟩
    rcases List.mem_cons.1 hm with hm | hm
    · cases hm; exact LoopOk.start s.clients
    · exact hl.running pos log hm
  | throw =>
    refine ⟨fun pos log hm => hl.running pos log ?_, hl.finished⟩
    rcases mem_unwind hm with hm | ⟨_, he, _⟩
    · exact hm
    · cases he

theorem Loops.loopStep {pos : Option Handle} {log : DispatchLog} {rest : List Frame}
    (hr : Registry s) (hst : StackOk s) (hl : Loops s) (hs : s.stack = .dispatch pos log :: rest)
    (body : List HandlerCall) : Loops (s.loopStep pos log rest body) := by
  have hloop := hl.running pos log (hs ▸ List.mem_cons_self _ _)
  have hrest : ∀ pos log, Frame.dispatch pos log ∈ rest → LoopOk s.clients pos log :=
    fun pos log hm => hl.running pos log (hs ▸ List.mem_cons_of_mem _ hm)
  unfold MessageDispatch.loopStep
  split
  · rename_i hnone
    have hst' := hst.loopStep hs body
    unfold MessageDispatch.loopStep at hst'
    rw [hnone] at hst'
    refine Loops.purgeDeadClients (hst'.of_eq purgeDeadClients_busy.symm
      purgeDeadClients_stack.symm) ⟨hrest, fun l hm => ?_⟩
    rcases List.mem_append.1 hm with hm | hm
    · exact hl.finished l hm
    · rw [List.mem_singleton.1 hm]; exact hloop.complete hnone
  · rename_i k c hnext
    have hadv := fun (log' : DispatchLog) => @LoopOk.advance _ _ _ _ _ log' hr.sorted hr.handler_inj hloop hnext
    split
    · refine ⟨fun pos' log' hm => ?_, hl.finished⟩
      rcases List.mem_cons.1 hm with hm | hm
      · cases hm; exact hadv _ rfl (by simp only [List.append_assoc]; exact List.Perm.refl _)
      · exact hrest pos' log' hm
    · refine ⟨fun pos' log' hm => ?_, hl.finished⟩
      rcases List.mem_cons.1 hm with hm | hm
      · cases hm
      rcases List.mem_cons.1 hm with hm | hm
      · cases hm
        exact hadv _ rfl (by
          simpa only [List.append_assoc] using
            (@List.perm_append_comm _ [c.handler] log.skipped).append_left log.invoked)
      · exact hrest pos' log' hm

theorem Loops.step (hr : Registry s) (hst : StackOk s) (hl : Loops s) (e : DispatchEvent)
    (hadd : (s.step e).added ≤ 2 ^ 32) : Loops (s.step e) := by
  rcases step_cases s e with he | ⟨c, -, he⟩ | ⟨pos, log, rest, body, -, hs, he⟩ | ⟨rest, _, hs, he⟩ |
    ⟨c, calls, _, rest, hs, he⟩ <;> rw [he] at hadd ⊢
  · exact hl
  · exact hl.call hr hst c hadd
  · exact hl.loopStep hr hst hs body
  · exact hl.of_keeps (keepsHandlers_refl _) (fun _ _ hm => hs ▸ List.mem_cons_of_mem _ hm) rfl
  · refine Loops.call (s := { s with stack := .handler calls c.catches :: rest }) (hr.sublist (.refl _) rfl rfl rfl)
      (hst.handler hs) (hl.of_keeps (keepsHandlers_refl _) (fun _ _ hm => ?_) rfl) c hadd
    rw [hs]
    rcases List.mem_cons.1 hm with hm | hm
    · cases hm
    · exact List.mem_cons_of_mem _ hm

/-! ### Purging -/

/-- With no `Dispatch` in progress, no client marked deleted is left. -/
def Purged (s : MessageDispatch) : Prop := s.busy = 0 → ∀ e ∈ s.clients, e.2.deleted = false

/-- No handler on the stack has an exception still to throw. -/
def Unthrown (s : MessageDispatch) : Prop :=
  ∀ calls b, Frame.handler calls b ∈ s.stack → HandlerCall.throw ∉ calls

theorem purged_purgeDeadClients (s : MessageDispatch) : Purged s.purgeDeadClients := by
  intro hb e he
  rw [purgeDeadClients_busy] at hb
  unfold MessageDispatch.purgeDeadClients at he
  rw [if_neg (not_not.2 hb)] at he
  simpa using (List.mem_filter.1 he).2

theorem Purged.call (hp : Purged s) (c : HandlerCall) (hc : c = .throw → s.busy = 0) :
    Purged (s.call c) := by
  cases c with
  | addClient =>
    intro hb e he
    rcases mem_mapAssign_of_mem he with rfl | he
    · rfl
    · exact hp hb e he
  | removeClient h =>
    show Purged (s.removeClient h)
    unfold MessageDispatch.removeClient
    split
    · exact hp
    · exact purged_purgeDeadClients _
  | dispatch => exact fun hb => absurd hb (Nat.succ_ne_zero _)
  | throw => exact fun _ => hp (hc rfl)

theorem Purged.step (hst : StackOk s) (hu : Unthrown s) (hp : Purged s) (e : DispatchEvent) :
    Purged (s.step e) := by
  rcases step_cases s e with he | ⟨c, hs, he⟩ | ⟨pos, log, rest, body, -, hs, he⟩ | ⟨rest, _, -, he⟩ |
    ⟨c, calls, _, rest, hs, he⟩ <;> rw [he]
  · exact hp
  · exact hp.call c fun _ => by rw [hst.busy_eq, hs]; rfl
  · unfold loopStep
    split
    · exact purged_purgeDeadClients _
    · have hb : s.busy ≠ 0 := by rw [hst.busy_eq, hs]; exact Nat.succ_ne_zero _
      split <;> exact fun h => absurd h hb
  · exact hp
  · exact Purged.call (s := { s with stack := .handler calls c.catches :: rest }) hp c
      fun hc => absurd (show HandlerCall.throw ∈ c :: calls by rw [hc]; exact List.mem_cons_self _ _)
        (hu _ _ (hs ▸ List.mem_cons_self _ _))

theorem Unthrown.call (hu : Unthrown s) (c : HandlerCall) : Unthrown (s.call c) := by
  cases c with
  | addClient => exact hu
  | removeClient h => intro calls b hm; exact hu calls b (by simpa [MessageDispatch.call] using hm)
  | dispatch =>
    intro calls b hm
    rcases List.mem_cons.1 hm with hm | hm
    · cases hm
    · exact hu calls b hm
  | throw =>
    intro calls b hm
    rcases mem_unwind hm with hm | ⟨calls', he, b', hm'⟩
    · exact hu calls b hm
    · cases he; exact hu calls b' hm'

theorem Unthrown.step (hu : Unthrown s) (e : DispatchEvent) (he : e.throws = false) :
    Unthrown (s.step e) := by
  rcases step_cases s e with h | ⟨c, -, h⟩ | ⟨pos, log, rest, body, rfl, hs, h⟩ | ⟨rest, _, hs, h⟩ |
    ⟨c, calls, _, rest, hs, h⟩ <;> rw [h]
  · exact hu
  · exact hu.call c
  · have hrest : ∀ calls b, Frame.handler calls b ∈ rest → HandlerCall.throw ∉ calls :=
      fun calls b hm => hu calls b (hs ▸ List.mem_cons_of_mem _ hm)
    unfold loopStep
    split
    · intro calls b hm; exact hrest calls b (by simpa using hm)
    · split
      · intro calls b hm
        rcases List.mem_cons.1 hm with hm | hm
        · cases hm
        · exact hrest calls b hm
      · intro calls b hm
        rcases List.mem_cons.1 hm with hm | hm
        · cases hm; simpa [DispatchEvent.throws] using he
        rcases List.mem_cons.1 hm with hm | hm
        · cases hm
        · exact hrest calls b hm
  · exact fun calls b hm => hu calls b (hs ▸ List.mem_cons_of_mem _ hm)
  · refine Unthrown.call (s := { s with stack := .handler calls c.catches :: rest })
      (fun calls' b' hm => ?_) c
    rcases List.mem_cons.1 hm with hm | hm
    · cases hm
      exact fun ht => hu _ _ (hs ▸ List.mem_cons_self _ _) (List.mem_cons_of_mem _ ht)
    · exact hu calls' b' (hs ▸ List.mem_cons_of_mem _ hm)

/-! ### Invocations and removals -/

theorem call_invocations (s : MessageDispatch) (c : HandlerCall) :
    (s.call c).invocations = s.invocations := by
  cases c <;> simp [MessageDispatch.call, addClient, beginDispatch]

theorem call_removed (s : MessageDispatch) (c : HandlerCall) :
    ∃ more, (s.call c).removed = s.removed ++ more := by
  cases c with
  | removeClient h =>
    show ∃ more, (s.removeClient h).removed = s.removed ++ more
    unfold MessageDispatch.removeClient
    split
    · exact ⟨[], by simp⟩
    · rename_i c _
      exact ⟨[c.handler], by simp⟩
  | _ => exact ⟨[], by simp [MessageDispatch.call, addClient, beginDispatch]⟩

/-- A step invokes at most one handler, that of a client not marked deleted. -/
theorem step_invokes_live (e : DispatchEvent) :
    ∃ later, (s.step e).invocations = s.invocations ++ later ∧
      ∀ g ∈ later, ∃ k, (k, ⟨g, false⟩) ∈ s.clients := by
  rcases step_cases s e with he | ⟨c, -, he⟩ | ⟨pos, log, rest, body, -, -, he⟩ | ⟨rest, _, -, he⟩ |
    ⟨c, calls, _, rest, -, he⟩ <;> rw [he]
  · exact ⟨[], by simp, nofun⟩
  · exact ⟨[], by simp [call_invocations], nofun⟩
  · unfold loopStep
    split
    · exact ⟨[], by simp, nofun⟩
    · rename_i k c hnext
      split
      · exact ⟨[], by simp, nofun⟩
      · rename_i hd
        refine ⟨[c.handler], rfl, fun g hg => ⟨k, ?_⟩⟩
        have hc : c = ⟨c.handler, false⟩ := by cases c; simpa using hd
        rw [List.mem_singleton.1 hg, ← hc]
        exact List.mem_of_find?_eq_some hnext
  · exact ⟨[], by simp, nofun⟩
  · exact ⟨[], by simp [call_invocations], nofun⟩

/-- A step does not invoke a handler whose `RemoveClient` has returned. -/
theorem step_invocations (hr : Registry s) (e : DispatchEvent) :
    ∃ later, (s.step e).invocations = s.invocations ++ later ∧ ∀ g ∈ later, g ∉ s.removed := by
  obtain ⟨later, h, hl⟩ := step_invokes_live (s := s) e
  refine ⟨later, h, fun g hg hrem => ?_⟩
  obtain ⟨k, hk⟩ := hl g hg
  exact Bool.false_ne_true (hr.deleted_of_removed _ hk hrem)

theorem step_removed (s : MessageDispatch) (e : DispatchEvent) :
    ∃ more, (s.step e).removed = s.removed ++ more := by
  rcases step_cases s e with he | ⟨c, -, he⟩ | ⟨pos, log, rest, body, -, -, he⟩ | ⟨rest, _, -, he⟩ |
    ⟨c, calls, _, rest, -, he⟩ <;> rw [he]
  · exact ⟨[], by simp⟩
  · exact call_removed s c
  · unfold loopStep
    split
    · exact ⟨[], by simp⟩
    · split <;> exact ⟨[], by simp⟩
  · exact ⟨[], by simp⟩
  · exact call_removed _ c

/-! ### Erasing -/

theorem mem_handles_mapAssign {β : Type} {m : List (Handle × β)} {k k' : Handle} {v : β}
    (hk : k ∈ m.map Prod.fst) : k ∈ (mapAssign m k' v).map Prod.fst := by
  induction m with
  | nil => cases hk
  | cons a rest ih =>
    simp only [Dump978.mapAssign]
    split_ifs with heq
    · rcases List.mem_cons.1 hk with rfl | hk
      · rw [heq]; exact List.mem_cons_self _ _
      · exact List.mem_cons_of_mem _ hk
    · exact List.mem_cons_of_mem _ hk
    · rcases List.mem_cons.1 hk with rfl | hk
      · exact List.mem_cons_self _ _
      · exact List.mem_cons_of_mem _ (ih hk)

theorem call_keeps_handles (s : MessageDispatch) (c : HandlerCall) (hb : 0 < (s.call c).busy) :
    ∀ k ∈ s.clients.map Prod.fst, k ∈ (s.call c).clients.map Prod.fst := by
  intro k hk
  cases c with
  | addClient => exact mem_handles_mapAssign hk
  | removeClient h =>
    simp only [MessageDispatch.call, removeClient_busy] at hb ⊢
    unfold MessageDispatch.removeClient
    split
    · exact hk
    · unfold MessageDispatch.purgeDeadClients
      rw [if_pos (Nat.pos_iff_ne_zero.1 hb)]
      exact mem_handles_mapAssign hk
  | dispatch => exact hk
  | throw => exact hk

/-- No step after which a `Dispatch` is still in progress erases an entry: `PurgeDeadClients`
erases only once `busy_` is `0`, and it is the last thing a call does. -/
theorem step_keeps_handles (s : MessageDispatch) (e : DispatchEvent) (hb : 0 < (s.step e).busy) :
    ∀ k ∈ s.clients.map Prod.fst, k ∈ (s.step e).clients.map Prod.fst := by
  rcases step_cases s e with he | ⟨c, -, he⟩ | ⟨pos, log, rest, body, -, -, he⟩ | ⟨rest, _, -, he⟩ |
    ⟨c, calls, _, rest, -, he⟩ <;> rw [he] at hb ⊢
  · exact fun _ => id
  · exact call_keeps_handles s c hb
  · unfold loopStep at hb ⊢
    cases hn : nextClient s.clients pos with
    | none =>
      simp only [hn, purgeDeadClients_busy] at hb ⊢
      unfold MessageDispatch.purgeDeadClients
      rw [if_pos (Nat.pos_iff_ne_zero.1 hb)]
      exact fun _ => id
    | some kc =>
      simp only [hn]
      split <;> exact fun _ => id
  · exact fun _ => id
  · exact call_keeps_handles { s with stack := .handler calls c.catches :: rest } c hb

/-! ### Handlers no client holds -/

/-- Handler `g` was given out by `AddClient`, and no client holds it now. -/
structure Gone (g : Nat) (s : MessageDispatch) : Prop where
  given : g < s.added
  not_held : ∀ e ∈ s.clients, e.2.handler ≠ g

theorem Gone.of_sublist {t : MessageDispatch} (hg : Gone g s)
    (hsub : List.Sublist t.clients s.clients) (ha : t.added = s.added) : Gone g t :=
  ⟨ha ▸ hg.given, fun e he => hg.not_held e (hsub.subset he)⟩

theorem Gone.call (hg : Gone g s) (c : HandlerCall) : Gone g (s.call c) := by
  cases c with
  | addClient =>
    refine ⟨Nat.lt_succ_of_lt hg.given, fun e he => ?_⟩
    rcases mem_mapAssign_of_mem he with rfl | he
    · exact hg.given.ne'
    · exact hg.not_held e he
  | removeClient h =>
    show Gone g (s.removeClient h)
    unfold removeClient
    split
    · exact hg
    · rename_i c hc
      refine Gone.of_sublist ?_ purgeDeadClients_clients_sublist purgeDeadClients_added
      refine ⟨hg.given, fun e he => ?_⟩
      rcases mem_mapAssign_of_mem he with rfl | he
      · exact hg.not_held (h, c) (mem_of_lookup_eq_some hc)
      · exact hg.not_held e he
  | dispatch => exact hg.of_sublist (.refl _) rfl
  | throw => exact hg.of_sublist (.refl _) rfl

/-- A handler no client holds stays so: `AddClient` gives out a new one. -/
theorem Gone.step (hg : Gone g s) (e : DispatchEvent) : Gone g (s.step e) := by
  rcases step_cases s e with he | ⟨c, -, he⟩ | ⟨pos, log, rest, body, -, -, he⟩ | ⟨rest, _, -, he⟩ |
    ⟨c, calls, _, rest, -, he⟩ <;> rw [he]
  · exact hg
  · exact hg.call c
  · unfold loopStep
    split
    · exact hg.of_sublist purgeDeadClients_clients_sublist purgeDeadClients_added
    · split <;> exact hg.of_sublist (.refl _) rfl
  · exact hg.of_sublist (.refl _) rfl
  · exact (hg.of_sublist (t := { s with stack := .handler calls c.catches :: rest })
      (.refl _) rfl).call c

/-- A handler no client holds is not invoked in a run. -/
theorem Gone.run_invocations (hg : Gone g s) (es : List DispatchEvent) :
    ∃ later, (s.run es).invocations = s.invocations ++ later ∧ g ∉ later := by
  induction es generalizing s with
  | nil => exact ⟨[], by simp, nofun⟩
  | cons e es ih =>
    obtain ⟨l₁, h₁, hl₁⟩ := step_invokes_live (s := s) e
    obtain ⟨l₂, h₂, hl₂⟩ := ih (hg.step e)
    refine ⟨l₁ ++ l₂, by rw [run_cons, h₂, h₁, List.append_assoc], fun hl => ?_⟩
    rcases List.mem_append.1 hl with hl | hl
    · obtain ⟨k, hk⟩ := hl₁ g hl
      exact hg.not_held _ hk rfl
    · exact hl₂ hl

/-! ### Runs -/

/-- The invariant of every reachable state. -/
structure Inv (s : MessageDispatch) : Prop where
  registry : Registry s
  stackOk : StackOk s
  loops : s.added ≤ 2 ^ 32 → Loops s

theorem Inv.init : Inv init := ⟨.init, .init, fun _ => .init⟩

theorem Inv.step (h : Inv s) (e : DispatchEvent) : Inv (s.step e) :=
  ⟨h.registry.step e, h.stackOk.step e, fun hadd =>
    (h.loops ((added_le_step s e).trans hadd)).step h.registry h.stackOk e hadd⟩

theorem Inv.run (h : Inv s) (es : List DispatchEvent) : Inv (s.run es) := by
  induction es generalizing s with
  | nil => exact h
  | cons e es ih => exact ih (h.step e)

/-- A handler whose `RemoveClient` has returned is not invoked in any later step. -/
theorem run_never_invokes_removed (h : Inv s) (es : List DispatchEvent) :
    ∃ later, (s.run es).invocations = s.invocations ++ later ∧ ∀ g ∈ s.removed, g ∉ later := by
  induction es generalizing s with
  | nil => exact ⟨[], by simp, fun _ _ => nofun⟩
  | cons e es ih =>
    obtain ⟨l₁, h₁, hl₁⟩ := step_invocations h.registry e
    obtain ⟨l₂, h₂, hl₂⟩ := ih (h.step e)
    obtain ⟨more, hmore⟩ := step_removed s e
    refine ⟨l₁ ++ l₂, by rw [run_cons, h₂, h₁, List.append_assoc], fun g hg hl => ?_⟩
    rcases List.mem_append.1 hl with hl | hl
    · exact hl₁ g hl hg
    · exact hl₂ g (hmore ▸ List.mem_append_left _ hg) hl

/-- A step that makes a call is that call on the state with the stack popped to the caller. -/
theorem step_of_stepCall {e : DispatchEvent} {c : HandlerCall} (h : s.stepCall e = some c) :
    ∃ stack, s.step e = { s with stack := stack }.call c := by
  cases e with
  | call c' =>
    simp only [stepCall] at h
    split_ifs at h with hs
    cases h
    exact ⟨s.stack, if_pos hs⟩
  | step body =>
    simp only [stepCall] at h
    split at h
    · rename_i c' calls b rest hs
      cases h
      exact ⟨.handler calls c.catches :: rest, by simp only [step, hs]⟩
    · cases h

/-- `RemoveClient(h)` on a client records its handler as removed. -/
theorem mem_removed_removeClient {h : Handle} {c : Client} (hc : s.clients.lookup h = some c) :
    c.handler ∈ (s.removeClient h).removed := by
  simp only [removeClient, hc, purgeDeadClients_removed, List.mem_append, List.mem_singleton,
    or_true]

/-- **A handler whose client `RemoveClient(h)` found is never invoked again**: neither by the
step that makes the call, from outside or from a handler, nor by any later step. -/
theorem not_invoked_after_removeClient (hi : Inv s) {e : DispatchEvent} {h : Handle} {c : Client}
    (hcall : s.stepCall e = some (.removeClient h)) (hc : s.clients.lookup h = some c)
    (es : List DispatchEvent) :
    c.handler ∉ ((s.step e).run es).invocations.drop s.invocations.length := by
  obtain ⟨stack, he⟩ := step_of_stepCall hcall
  have hrem : c.handler ∈ (s.step e).removed := by rw [he]; exact mem_removed_removeClient hc
  have hinv : (s.step e).invocations = s.invocations := by
    rw [he]; exact removeClient_invocations h
  obtain ⟨later, hlater, hnot⟩ := run_never_invokes_removed (hi.step e) es
  rw [hlater, hinv, List.drop_left]
  exact hnot _ hrem

theorem Purged.run (h : Inv s) (hu : Unthrown s) (hp : Purged s) (es : List DispatchEvent)
    (hes : ∀ e ∈ es, e.throws = false) : Purged (s.run es) := by
  induction es generalizing s with
  | nil => exact hp
  | cons e es ih =>
    exact ih (h.step e) (hu.step e (hes e (List.mem_cons_self _ _)))
      (hp.step h.stackOk hu e) fun e' he' => hes e' (List.mem_cons_of_mem _ he')

/-- **A handler no client holds is never invoked again**: once `PurgeDeadClients` has erased
its entry, or `AddClient` has overwritten it after `next_handle_` wrapped, no later step
invokes it, in a `Dispatch` in progress or in a later one. -/
theorem dispatch_unheld_never_invoked (es es' : List DispatchEvent) (g : Nat) :
    let s := init.run es
    g < s.added → (∀ e ∈ s.clients, e.2.handler ≠ g) →
      g ∉ (s.run es').invocations.drop s.invocations.length := by
  intro s hg hheld
  obtain ⟨later, hl, hnot⟩ := Gone.run_invocations ⟨hg, hheld⟩ es'
  rw [hl, List.drop_left]
  exact hnot

/-- A client removed from outside is erased at once, and a `Dispatch` that follows does not
invoke its handler. -/
theorem dispatch_unheld_never_invoked_purged :
    let s := init.run [.call .addClient, .call .addClient, .call (.removeClient 0)]
    (0 < s.added ∧ ∀ e ∈ s.clients, e.2.handler ≠ 0) ∧
      0 ∉ (s.run [.call (.dispatch false), .step [], .step [], .step []]).invocations.drop
        s.invocations.length :=
  ⟨by decide, dispatch_unheld_never_invoked _ _ 0 (by decide) (by decide)⟩

/-! ### After `next_handle_` wraps -/

/-- The clients after `n ≤ 2^32` calls of `AddClient` from the constructor: handler `i` under
handle `i`. -/
def firstClients (n : Nat) : List (Handle × Client) :=
  (List.range n).map fun i => (UInt32.ofNat i, ⟨i, false⟩)

/-- Assigning a handle above every handle of the map appends its entry. -/
theorem mapAssign_of_lt {m : List (Handle × Client)} {k : Handle} {v : Client}
    (h : ∀ e ∈ m, e.1 < k) : mapAssign m k v = m ++ [(k, v)] := by
  induction m with
  | nil => rfl
  | cons a rest ih =>
    have ha := handle_lt_iff.1 (h a (List.mem_cons_self _ _))
    rw [mapAssign, if_neg (fun he => by rw [he] at ha; omega),
      if_neg (fun hl => by rw [handle_lt_iff] at hl; omega),
      ih fun e he => h e (List.mem_cons_of_mem _ he), List.cons_append]

theorem mapAssign_firstClients {n : Nat} (hn : n < 2 ^ 32) :
    mapAssign (firstClients n) (UInt32.ofNat n) ⟨n, false⟩ = firstClients (n + 1) := by
  rw [mapAssign_of_lt, firstClients, firstClients, List.range_succ, List.map_append]
  · rfl
  intro e he
  obtain ⟨i, hi, rfl⟩ := List.mem_map.1 he
  rw [handle_lt_iff, UInt32.toNat_ofNat_of_lt (lt_trans (List.mem_range.1 hi) hn),
    UInt32.toNat_ofNat_of_lt hn]
  simpa using hi

/-- `n ≤ 2^32` calls of `AddClient` from the constructor. -/
theorem run_addClients {n : Nat} (hn : n ≤ 2 ^ 32) :
    init.run (List.replicate n (.call .addClient)) =
      ⟨UInt32.ofNat n, 0, firstClients n, [], n, [], [], []⟩ := by
  induction n with
  | zero => rfl
  | succ n ih =>
    have hnext : UInt32.ofNat n + 1 = UInt32.ofNat (n + 1) :=
      handle_eq_iff.2 (show (n % 2 ^ 32 + 1) % 2 ^ 32 = (n + 1) % 2 ^ 32 by omega)
    rw [List.replicate_succ', run_append, ih (by omega)]
    simp only [run_cons, run_nil, step, call, addClient, if_true, hnext,
      mapAssign_firstClients (show n < 2 ^ 32 by omega)]

/-- Past handles `0` and `1`, `firstClients` holds handlers from `2` on. -/
theorem firstClients_add_two (m : Nat) :
    ∃ rest, firstClients (m + 2) = (0, ⟨0, false⟩) :: (1, ⟨1, false⟩) :: rest ∧
      ∀ e ∈ rest, 2 ≤ e.2.handler :=
  ⟨(List.range m).map fun i => (UInt32.ofNat (i + 2), ⟨i + 2, false⟩),
    by simp only [firstClients, List.range_succ_eq_map, List.map_cons, List.map_map]; rfl,
    by simp⟩

end MessageDispatch

end Dump978
