/-
**The pool of command structures of the MQTT agent.**

`freertos_command_pool.c` keeps a static array of command structures and a queue with the
addresses of the free ones.  `Agent_GetCommand` takes an address out of the queue and
`Agent_ReleaseCommand` puts one back, provided that it lies inside the array; nothing records
which structures are out.  The array is seen here through its address and the size of its
elements, and a failed `configASSERT` as a call that does not return.

Main definitions:

* `PoolLayout` — the array in memory;
* `CommandPool`, `Agent.initializePool`, `Agent.getCommand`, `Agent.releaseCommand` — the pool;
* `PoolClients`, `poolStep` — calls in any order, with the addresses that are out;
* `Served`, `Returns` — what the clients get, and what they give back.

Main results:

* `commandPool_exclusive_iff` — **no structure is ever in two hands, and no assertion fails,
  exactly when only structures that are out are released**;
* `commandPool_order` — structures are handed out in the order in which they came back, and
  `Agent_GetCommand` finds none exactly when all of them are out.
-/

import TwinThing.Lib.Pool

set_option relaxedAutoImplicit false
set_option autoImplicit false

namespace TwinThing

/-! ### The array -/

/-- How many command structures there are. -/
def MQTT_COMMAND_CONTEXTS_POOL_SIZE : ℕ := 10

/-- The null pointer. -/
def NULL : ℕ := 0

/-- Where `commandStructurePool` lies and how large an `MQTTAgentCommand_t` is. -/
structure PoolLayout where
  commandStructurePool : ℕ
  size : ℕ
  not_null : NULL < commandStructurePool
  size_pos : 0 < size

namespace PoolLayout

variable (L : PoolLayout)

/-- The address `commandStructurePool + i`. -/
def element (i : ℕ) : ℕ := L.commandStructurePool + i * L.size

/-- The addresses of the structures, in order. -/
def structures : List ℕ := (List.range MQTT_COMMAND_CONTEXTS_POOL_SIZE).map L.element

/-- The address is inside the array. -/
def Contains (p : ℕ) : Prop :=
  L.element 0 ≤ p ∧ p < L.element MQTT_COMMAND_CONTEXTS_POOL_SIZE

instance (p : ℕ) : Decidable (L.Contains p) := inferInstanceAs (Decidable (_ ∧ _))

theorem length_structures : L.structures.length = MQTT_COMMAND_CONTEXTS_POOL_SIZE := by
  rw [structures, List.length_map, List.length_range]

theorem nodup_structures : L.structures.Nodup := by
  refine List.Nodup.map ?_ List.nodup_range
  intro i j hij
  exact Nat.eq_of_mul_eq_mul_right L.size_pos (Nat.add_left_cancel hij)

theorem ne_null_of_contains {p : ℕ} (h : L.Contains p) : p ≠ NULL := by
  have hlow : L.commandStructurePool + 0 * L.size ≤ p := h.1
  have hpos := L.not_null
  omega

theorem ne_null_of_mem {p : ℕ} (h : p ∈ L.structures) : p ≠ NULL := by
  obtain ⟨i, -, rfl⟩ := List.mem_map.1 h
  have hpos := L.not_null
  simp only [element]
  omega

end PoolLayout

/-! ### Messages -/

/-- The queue of addresses. -/
abbrev CommandQueue := Fifo ℕ MQTT_COMMAND_CONTEXTS_POOL_SIZE

namespace Agent

/-- `Agent_MessageSend` at the moment it gives up or succeeds: the queue it leaves, or `none` where
it returns `false`.  Either pointer may be null. -/
def messageSend (pMsgCtx : Option CommandQueue) (pCommandToSend : Option ℕ) :
    Option CommandQueue :=
  match pMsgCtx, pCommandToSend with
  | some q, some p => if q.Full then none else some (q.push p)
  | _, _ => none

/-- `Agent_MessageReceive`: the address stored through `pReceivedCommand` and the queue left. -/
def messageReceive (pMsgCtx : Option CommandQueue) (pReceivedCommand : Option ℕ) :
    Option (ℕ × CommandQueue) :=
  match pMsgCtx, pReceivedCommand with
  | some q, some _ => q.pop
  | _, _ => none

theorem messageSend_of_not_full {q : CommandQueue} (h : ¬ q.Full) (p : ℕ) :
    messageSend (some q) (some p) = some (q.push p) := if_neg h

theorem messageSend_of_full {q : CommandQueue} (h : q.Full) (p : ℕ) :
    messageSend (some q) (some p) = none := if_pos h

end Agent

/-! ### The pool -/

/-- The static variables of the pool: once it is initialised it has a queue. -/
structure CommandPool where
  initStatus : Bool
  queue : Option CommandQueue
  created : initStatus = true → queue ≠ none

namespace Agent

/-- The loop that populates the queue; it asserts that every address fits. -/
def populate (q : CommandQueue) : List ℕ → Option CommandQueue
  | [] => some q
  | p :: ps =>
      match messageSend (some q) (some p) with
      | none => none
      | some q' => populate q' ps

def initializePool (L : PoolLayout) (m : CommandPool) : Option CommandPool :=
  if m.initStatus then some m
  else
    match populate Fifo.empty L.structures with
    | none => none
    | some q => some ⟨true, some q, fun _ => Option.some_ne_none q⟩

/-- The address `Agent_GetCommand` returns, with the pool it leaves. -/
def getCommand (m : CommandPool) : Option (ℕ × CommandPool) :=
  if m.initStatus then
    match m.queue with
    | none => none
    | some q =>
        match messageReceive (some q) (some NULL) with
        | none => some (NULL, m)
        | some (structToUse, q') =>
            some (structToUse, ⟨m.initStatus, some q', fun _ => Option.some_ne_none q'⟩)
  else none

/-- What `Agent_ReleaseCommand` returns, with the pool it leaves. -/
def releaseCommand (L : PoolLayout) (m : CommandPool) (pCommandToRelease : ℕ) :
    Option (Bool × CommandPool) :=
  if m.initStatus then
    if L.Contains pCommandToRelease then
      match m.queue with
      | none => none
      | some q =>
          match messageSend (some q) (some pCommandToRelease) with
          | none => none
          | some q' => some (true, ⟨m.initStatus, some q', fun _ => Option.some_ne_none q'⟩)
    else some (false, m)
  else none

theorem populate_eq (q : CommandQueue) (ps : List ℕ)
    (h : q.items.length + ps.length ≤ MQTT_COMMAND_CONTEXTS_POOL_SIZE) :
    ∃ q', populate q ps = some q' ∧ q'.items = q.items ++ ps := by
  induction ps generalizing q with
  | nil => exact ⟨q, rfl, (List.append_nil _).symm⟩
  | cons p ps ih =>
      rw [List.length_cons] at h
      have hfull : ¬ q.Full := by
        intro hq
        have hle : MQTT_COMMAND_CONTEXTS_POOL_SIZE ≤ q.items.length := hq
        omega
      have hpush := Fifo.items_push_of_not_full hfull p
      obtain ⟨q', hq', hitems⟩ := ih (q.push p) (by rw [hpush]; simp; omega)
      refine ⟨q', ?_, by rw [hitems, hpush]; simp⟩
      simp only [populate, messageSend_of_not_full hfull, hq']

/-- The first initialisation fills the queue with all structures, in order. -/
theorem initializePool_first (L : PoolLayout) {m : CommandPool} (h : m.initStatus = false) :
    ∃ q h', initializePool L m = some ⟨true, some q, h'⟩ ∧ q.items = L.structures := by
  obtain ⟨q, hq, hitems⟩ := populate_eq Fifo.empty L.structures
    (by rw [L.length_structures]; exact Nat.le_of_eq (Nat.zero_add _))
  exact ⟨q, _, by simp only [initializePool, h, hq]; rfl, hitems⟩

end Agent

/-! ### Calls in any order -/

/-- A call of one of the three functions. -/
inductive PoolCall where
  | initializePool
  | getCommand
  | releaseCommand (p : ℕ)

/-- What a call returns. -/
inductive PoolReply where
  | done
  | command (p : ℕ)
  | returned (b : Bool)

/-- A call, or `none` where an assertion fails. -/
def CommandPool.call (L : PoolLayout) (m : CommandPool) : PoolCall →
    Option (PoolReply × CommandPool)
  | .initializePool => (Agent.initializePool L m).map fun m' => (.done, m')
  | .getCommand => (Agent.getCommand m).map fun r => (.command r.1, r.2)
  | .releaseCommand p => (Agent.releaseCommand L m p).map fun r => (.returned r.1, r.2)

/-- The pool and its clients: the addresses that are out are those which `Agent_GetCommand` handed
out and `Agent_ReleaseCommand` has not taken back since. -/
structure PoolClients where
  pool : CommandPool
  out : List ℕ

/-- The addresses that are out after a call. -/
def account (out : List ℕ) : PoolCall → PoolReply → List ℕ
  | .getCommand, .command p => if p = NULL then out else p :: out
  | .releaseCommand p, .returned true => out.erase p
  | _, _ => out

/-- One call.  After a failed assertion nothing happens any more. -/
def poolStep (L : PoolLayout) (s : PoolClients) (c : PoolCall) : PoolClients :=
  match s.pool.call L c with
  | none => s
  | some (r, m) => ⟨m, account s.out c r⟩

/-- Before anything was called. -/
def PoolClients.boot : PoolClients := ⟨⟨false, none, by simp⟩, []⟩

/-- After the pool was initialised. -/
def PoolClients.started (L : PoolLayout) : PoolClients := poolStep L .boot .initializePool

/-- The call returns, and an address it hands out is that of a structure which nobody has. -/
def Served (L : PoolLayout) (s : PoolClients) (c : PoolCall) : Prop :=
  ∃ r m, s.pool.call L c = some (r, m) ∧
    ∀ p, r = .command p → p ≠ NULL → p ∈ L.structures ∧ p ∉ s.out

/-- An address inside the array is released only while it is out. -/
def Returns (L : PoolLayout) (s : PoolClients) (c : PoolCall) : Prop :=
  ∀ p, c = .releaseCommand p → L.Contains p → p ∈ s.out

/-! ### The pool as a pool of tokens -/

namespace PoolClients

/-- The tokens: the addresses in the queue and those that are out. -/
def abs (s : PoolClients) : Pool ℕ MQTT_COMMAND_CONTEXTS_POOL_SIZE :=
  ⟨s.pool.queue.getD Fifo.empty, s.out⟩

@[simp] theorem abs_out (s : PoolClients) : s.abs.out = s.out := rfl

/-- The pool is initialised, and the null pointer is not in its queue. -/
structure Ready (s : PoolClients) : Prop where
  initStatus : s.pool.initStatus = true
  not_null : ∀ p ∈ s.abs.free.items, p ≠ NULL

theorem Ready.queue {s : PoolClients} (h : s.Ready) : s.pool.queue = some s.abs.free := by
  obtain ⟨q, hq⟩ := Option.ne_none_iff_exists'.1 (s.pool.created h.initStatus)
  rw [abs, hq, Option.getD_some]

end PoolClients

/-- The operation on the tokens that a call amounts to, if any. -/
def PoolCall.seen (L : PoolLayout) : PoolCall → List (Pool.Op ℕ)
  | .initializePool => []
  | .getCommand => [.take]
  | .releaseCommand p => if L.Contains p then [.put p] else []

section Calls

variable {L : PoolLayout} {s : PoolClients}

theorem call_initializePool (h : s.Ready) :
    s.pool.call L .initializePool = some (.done, s.pool) := by
  simp [CommandPool.call, Agent.initializePool, h.initStatus]

theorem call_get_of_empty (h : s.Ready) (hpop : s.abs.free.pop = none) :
    s.pool.call L .getCommand = some (.command NULL, s.pool) := by
  simp [CommandPool.call, Agent.getCommand, Agent.messageReceive, h.initStatus, h.queue, hpop]

theorem call_get_of_cons (h : s.Ready) {p : ℕ} {q : CommandQueue}
    (hpop : s.abs.free.pop = some (p, q)) :
    s.pool.call L .getCommand
      = some (.command p, ⟨true, some q, fun _ => Option.some_ne_none q⟩) := by
  simp [CommandPool.call, Agent.getCommand, Agent.messageReceive, h.initStatus, h.queue, hpop]

theorem call_release_foreign (h : s.Ready) {p : ℕ} (hp : ¬ L.Contains p) :
    s.pool.call L (.releaseCommand p) = some (.returned false, s.pool) := by
  simp [CommandPool.call, Agent.releaseCommand, h.initStatus, hp]

theorem call_release_of_full (h : s.Ready) {p : ℕ} (hp : L.Contains p)
    (hfull : s.abs.free.Full) : s.pool.call L (.releaseCommand p) = none := by
  simp [CommandPool.call, Agent.releaseCommand, h.initStatus, hp, h.queue,
    Agent.messageSend_of_full hfull]

theorem call_release_of_not_full (h : s.Ready) {p : ℕ} (hp : L.Contains p)
    (hfull : ¬ s.abs.free.Full) :
    s.pool.call L (.releaseCommand p) = some (.returned true,
      ⟨true, some (s.abs.free.push p), fun _ => Option.some_ne_none _⟩) := by
  simp [CommandPool.call, Agent.releaseCommand, h.initStatus, hp, h.queue,
    Agent.messageSend_of_not_full hfull]

end Calls

theorem ready_step {L : PoolLayout} (s : PoolClients) (c : PoolCall) (h : s.Ready) :
    (poolStep L s c).Ready := by
  cases c with
  | initializePool => simpa only [poolStep, call_initializePool h, account] using h
  | getCommand =>
      cases hpop : s.abs.free.pop with
      | none => simpa only [poolStep, call_get_of_empty h hpop, account, if_true] using h
      | some r =>
          obtain ⟨p, q⟩ := r
          simp only [poolStep, call_get_of_cons h hpop]
          refine ⟨rfl, fun p' hp' => h.not_null p' ?_⟩
          rw [Fifo.items_of_pop_some hpop]
          exact List.mem_cons_of_mem _ hp'
  | releaseCommand p =>
      by_cases hp : L.Contains p
      · by_cases hfull : s.abs.free.Full
        · simpa only [poolStep, call_release_of_full h hp hfull] using h
        · simp only [poolStep, call_release_of_not_full h hp hfull]
          refine ⟨rfl, fun p' hp' => ?_⟩
          have hmem : p' ∈ s.abs.free.items ++ [p] := by
            rwa [← Fifo.items_push_of_not_full hfull]
          rcases List.mem_append.1 hmem with hin | hin
          · exact h.not_null p' hin
          · exact List.mem_singleton.1 hin ▸ L.ne_null_of_contains hp
      · simpa only [poolStep, call_release_foreign h hp, account] using h

/-- **The pool refines a pool of tokens**: a call is an operation on the tokens, or nothing. -/
theorem abs_step {L : PoolLayout} (s : PoolClients) (c : PoolCall) (h : s.Ready) :
    (poolStep L s c).abs = Runs.run Pool.step s.abs (c.seen L) := by
  cases c with
  | initializePool => simp only [poolStep, call_initializePool h, account]; rfl
  | getCommand =>
      change _ = s.abs.take
      cases hpop : s.abs.free.pop with
      | none => simp [poolStep, call_get_of_empty h hpop, account, Pool.take, hpop]
      | some r =>
          obtain ⟨p, q⟩ := r
          have hp : p ≠ NULL := h.not_null p (by rw [Fifo.items_of_pop_some hpop]; simp)
          simp only [poolStep, call_get_of_cons h hpop, account, if_neg hp, Pool.take, hpop]
          rfl
  | releaseCommand p =>
      by_cases hp : L.Contains p
      · rw [PoolCall.seen, if_pos hp]
        change _ = s.abs.put p
        by_cases hfull : s.abs.free.Full
        · simp only [poolStep, call_release_of_full h hp hfull, Pool.put_of_full hfull]
        · simp only [poolStep, call_release_of_not_full h hp hfull, account, Pool.put,
            if_neg hfull]
          rfl
      · rw [PoolCall.seen, if_neg hp]
        simp only [poolStep, call_release_foreign h hp, account]
        rfl

/-- A call is served exactly when its operation on the tokens is fair. -/
theorem served_iff_fair {L : PoolLayout} (s : PoolClients) (c : PoolCall) (h : s.Ready) :
    Served L s c ↔ Runs.Along Pool.step (Pool.Fair L.structures) s.abs (c.seen L) := by
  cases c with
  | initializePool =>
      refine iff_of_true ⟨_, _, call_initializePool h, fun p hp => ?_⟩ (Runs.along_nil _)
      cases hp
  | getCommand =>
      rw [PoolCall.seen, Runs.along_singleton]
      cases hpop : s.abs.free.pop with
      | none =>
          simp [Served, call_get_of_empty h hpop, Pool.Fair, Fifo.items_of_pop_none hpop]
      | some r =>
          obtain ⟨p, q⟩ := r
          have hitems := Fifo.items_of_pop_some hpop
          have hp : p ≠ NULL := h.not_null p (by rw [hitems]; simp)
          simp [Served, call_get_of_cons h hpop, Pool.Fair, hitems, hp]
  | releaseCommand p =>
      by_cases hp : L.Contains p
      · rw [PoolCall.seen, if_pos hp, Runs.along_singleton]
        by_cases hfull : s.abs.free.Full
        · simp [Served, call_release_of_full h hp hfull, Pool.Fair, hfull]
        · simp [Served, call_release_of_not_full h hp hfull, Pool.Fair, hfull]
      · rw [PoolCall.seen, if_neg hp]
        refine iff_of_true ⟨_, _, call_release_foreign h hp, fun p' hp' => ?_⟩ (Runs.along_nil _)
        cases hp'

theorem returns_iff_owned {L : PoolLayout} (s : PoolClients) (c : PoolCall) (_ : s.Ready) :
    Returns L s c ↔ Runs.Along Pool.step Pool.Owned s.abs (c.seen L) := by
  cases c with
  | initializePool => simp [Returns, PoolCall.seen, Runs.along_nil]
  | getCommand => simp [Returns, PoolCall.seen, Runs.along_singleton, Pool.Owned]
  | releaseCommand p =>
      by_cases hp : L.Contains p
      · simp [Returns, PoolCall.seen, hp, Runs.along_singleton, Pool.Owned]
      · simp [Returns, PoolCall.seen, hp, Runs.along_nil]

/-! ### From the initialisation on -/

theorem started_spec (L : PoolLayout) :
    (PoolClients.started L).Ready ∧ (PoolClients.started L).abs.free.items = L.structures ∧
      (PoolClients.started L).out = [] := by
  obtain ⟨q, h', hq, hitems⟩ := Agent.initializePool_first L (m := PoolClients.boot.pool) rfl
  have hstarted : PoolClients.started L = ⟨⟨true, some q, h'⟩, []⟩ := by
    simp only [PoolClients.started, poolStep, CommandPool.call, hq, Option.map_some]
    rfl
  rw [hstarted]
  refine ⟨⟨rfl, fun p hp => L.ne_null_of_mem ?_⟩, hitems, rfl⟩
  rw [← hitems]
  exact hp

theorem intact_started (L : PoolLayout) :
    Pool.Intact L.structures (PoolClients.started L).abs := by
  obtain ⟨-, hitems, hout⟩ := started_spec L
  rw [Pool.Intact, hitems, PoolClients.abs_out, hout, List.append_nil]

theorem seen_replicate_get (L : PoolLayout) (s : PoolClients) (k : ℕ) :
    Runs.outputs (poolStep L) (fun _ c => c.seen L) s (List.replicate k .getCommand)
      = List.replicate k .take := by
  induction k generalizing s with
  | zero => rfl
  | succ k ih => rw [List.replicate_succ, Runs.outputs, ih]; rfl

/-- **Exclusive use.**  Whatever calls follow the initialisation, in any order and from any number
of clients: every call returns, and no structure is handed out while somebody has it, also when
all structures are asked for afterwards, exactly when every address inside the array that was
released was out at that time. -/
theorem commandPool_exclusive_iff (L : PoolLayout) (calls : List PoolCall) :
    (∀ k, Runs.Along (poolStep L) (Served L) (PoolClients.started L)
        (calls ++ List.replicate k .getCommand)) ↔
      Runs.Along (poolStep L) (Returns L) (PoolClients.started L) calls := by
  have hready := (started_spec L).1
  rw [Runs.along_abs ready_step abs_step returns_iff_owned hready,
    ← Pool.forall_fair_iff L.nodup_structures (Nat.le_of_eq L.length_structures)
      (intact_started L)]
  refine forall_congr' fun k => ?_
  rw [Runs.along_abs ready_step abs_step served_iff_fair hready, Runs.outputs_append,
    seen_replicate_get]

/-! ### The order of service -/

/-- The address a call hands out, if any. -/
def handedOut (L : PoolLayout) (s : PoolClients) (c : PoolCall) : List ℕ :=
  match s.pool.call L c with
  | some (.command p, _) => if p = NULL then [] else [p]
  | _ => []

/-- The address a call puts back, if it is inside the array. -/
def putBack (L : PoolLayout) : PoolCall → Option ℕ
  | .releaseCommand p => if L.Contains p then some p else none
  | _ => none

theorem handedOut_eq {L : PoolLayout} (s : PoolClients) (c : PoolCall) (h : s.Ready) :
    handedOut L s c = Runs.outputs Pool.step Pool.handed s.abs (c.seen L) := by
  cases c with
  | initializePool => simp [handedOut, call_initializePool h, PoolCall.seen, Runs.outputs]
  | getCommand =>
      rw [PoolCall.seen, Runs.outputs_singleton]
      cases hpop : s.abs.free.pop with
      | none =>
          simp [handedOut, call_get_of_empty h hpop, Pool.handed, Fifo.items_of_pop_none hpop]
      | some r =>
          obtain ⟨p, q⟩ := r
          have hitems := Fifo.items_of_pop_some hpop
          have hp : p ≠ NULL := h.not_null p (by rw [hitems]; simp)
          simp [handedOut, call_get_of_cons h hpop, Pool.handed, hitems, hp]
  | releaseCommand p =>
      by_cases hp : L.Contains p
      · rw [PoolCall.seen, if_pos hp, Runs.outputs_singleton]
        by_cases hfull : s.abs.free.Full
        · simp [handedOut, call_release_of_full h hp hfull, Pool.handed]
        · simp [handedOut, call_release_of_not_full h hp hfull, Pool.handed]
      · simp [handedOut, call_release_foreign h hp, PoolCall.seen, hp, Runs.outputs]

/-- A call that returns finds room for what it puts back. -/
theorem returned_iff_fits {L : PoolLayout} (s : PoolClients) (c : PoolCall) (h : s.Ready) :
    (s.pool.call L c).isSome = true ↔ Runs.Along Pool.step Pool.Fits s.abs (c.seen L) := by
  cases c with
  | initializePool => simp [call_initializePool h, PoolCall.seen, Runs.along_nil]
  | getCommand =>
      rw [PoolCall.seen, Runs.along_singleton]
      cases hpop : s.abs.free.pop with
      | none => simp [call_get_of_empty h hpop, Pool.Fits, Pool.Op.back]
      | some r => simp [call_get_of_cons h hpop, Pool.Fits, Pool.Op.back]
  | releaseCommand p =>
      by_cases hp : L.Contains p
      · rw [PoolCall.seen, if_pos hp, Runs.along_singleton]
        by_cases hfull : s.abs.free.Full
        · simp [call_release_of_full h hp hfull, Pool.Fits, Pool.Op.back, hfull]
        · simp [call_release_of_not_full h hp hfull, Pool.Fits, Pool.Op.back, hfull]
      · simp [call_release_foreign h hp, PoolCall.seen, hp, Runs.along_nil]

theorem putBack_eq (L : PoolLayout) (s : PoolClients) (calls : List PoolCall) :
    (Runs.outputs (poolStep L) (fun _ c => c.seen L) s calls).filterMap Pool.Op.back
      = calls.filterMap (putBack L) := by
  induction calls generalizing s with
  | nil => rfl
  | cons c calls ih =>
      rw [Runs.outputs, List.filterMap_append, ih, List.filterMap_cons]
      cases c with
      | initializePool => rfl
      | getCommand => rfl
      | releaseCommand p =>
          by_cases hp : L.Contains p
          · simp [PoolCall.seen, putBack, hp, Pool.Op.back]
          · simp [PoolCall.seen, putBack, hp]

/-- With all structures in the queue or out, none is found exactly when all of them are out. -/
theorem none_found_iff {L : PoolLayout} {s : PoolClients} (h : s.Ready)
    (hintact : Pool.Intact L.structures s.abs) :
    (∃ m, s.pool.call L .getCommand = some (.command NULL, m)) ↔
      ∀ p ∈ L.structures, p ∈ s.out := by
  cases hpop : s.abs.free.pop with
  | none =>
      refine iff_of_true ⟨s.pool, call_get_of_empty h hpop⟩ fun p hp => ?_
      have hmem : p ∈ s.abs.free.items ++ s.abs.out := hintact.mem_iff.2 hp
      rwa [Fifo.items_of_pop_none hpop] at hmem
  | some r =>
      obtain ⟨p, q⟩ := r
      have hitems := Fifo.items_of_pop_some hpop
      have hfree : p ∈ s.abs.free.items := by rw [hitems]; simp
      constructor
      · rintro ⟨m, hm⟩
        rw [call_get_of_cons h hpop] at hm
        have hnull : p = NULL := by
          injection hm with hm
          exact PoolReply.command.inj (Prod.mk.inj hm).1
        exact absurd hnull (h.not_null p hfree)
      · intro hout
        obtain ⟨hnodup, hmem⟩ := hintact.proper L.nodup_structures
        have hin : p ∈ L.structures := hmem p (List.mem_append_left _ hfree)
        exact absurd (hout p hin) (List.disjoint_of_nodup_append hnodup hfree)

/-- **The order of service.**  As long as every call returns, the addresses handed out and then
those waiting in the queue are the ten structures in the order of the array and then whatever
was put back, in the order in which it came.  If moreover only structures that are out are
released, `Agent_GetCommand` finds none exactly when all ten are out. -/
theorem commandPool_order (L : PoolLayout) (calls : List PoolCall)
    (h : Runs.Along (poolStep L) (fun s c => (s.pool.call L c).isSome = true)
      (PoolClients.started L) calls) :
    Runs.outputs (poolStep L) (handedOut L) (PoolClients.started L) calls
        ++ (Runs.run (poolStep L) (PoolClients.started L) calls).abs.free.items
      = L.structures ++ calls.filterMap (putBack L) ∧
    (Runs.Along (poolStep L) (Returns L) (PoolClients.started L) calls →
      ((∃ m, (Runs.run (poolStep L) (PoolClients.started L) calls).pool.call L .getCommand
          = some (.command NULL, m)) ↔
        ∀ p ∈ L.structures, p ∈ (Runs.run (poolStep L) (PoolClients.started L) calls).out)) := by
  obtain ⟨hready, hitems, -⟩ := started_spec L
  constructor
  · have hfits := (Runs.along_abs ready_step abs_step returned_iff_fits hready calls).1 h
    rw [Runs.outputs_abs ready_step abs_step handedOut_eq hready,
      Runs.abs_run ready_step abs_step hready, Pool.taken_append_free hfits, hitems, putBack_eq]
  · intro hreturns
    have howned := (Runs.along_abs ready_step abs_step returns_iff_owned hready calls).1
      hreturns
    refine none_found_iff (Runs.run_invariant _ _ ready_step hready calls) ?_
    rw [Runs.abs_run ready_step abs_step hready]
    exact Pool.intact_run (Nat.le_of_eq L.length_structures) (intact_started L) howned

theorem commandPool_order_get_release :
    let L : PoolLayout := ⟨4096, 40, by decide, by decide⟩
    let calls : List PoolCall := [.getCommand, .releaseCommand 4096]
    Runs.outputs (poolStep L) (handedOut L) (PoolClients.started L) calls
        ++ (Runs.run (poolStep L) (PoolClients.started L) calls).abs.free.items
      = L.structures ++ calls.filterMap (putBack L) :=
  (commandPool_order ⟨4096, 40, by decide, by decide⟩ [.getCommand, .releaseCommand 4096]
    ⟨by decide +kernel, by decide +kernel, trivial⟩).1

end TwinThing
