import Mathlib.Data.List.Nodup
import Mathlib.Data.List.Perm.Basic
import ServerLib.Rpc.Wire

/-! The table of the calls that wait for a response, and what takes a call out of it. -/

namespace ServerLib.Rpc

open List

structure Invocation where
  handler : Nat
  response : Response

/-- Handlers are numbered by the calls that bring them. -/
structure PendingCall where
  handler : Nat
  deadline : Int := 0
  continuationId : UInt64 := 0
deriving DecidableEq

structure PendingCallRegistry where
  nextId : UInt64 := 1
  calls : List (UInt64 × PendingCall) := []

namespace PendingCallRegistry

section

variable (registry : PendingCallRegistry)

/-- The next number that is not zero. -/
def freshId : UInt64 :=
  if registry.nextId = 0 then registry.nextId + 1 else registry.nextId

/-- The clock counts nanoseconds, a timeout milliseconds. -/
def deadlineOf (timeout now : Int) : Int :=
  if 0 < timeout then now + 1000000 * timeout else 0

/-- `emplace` keeps the call that has the number already. -/
def create (handler : Option Nat) (timeout now : Int) (continuationId : UInt64) :
    UInt64 × PendingCallRegistry :=
  match handler with
  | none => (0, registry)
  | some handler =>
    let call := { handler, deadline := deadlineOf timeout now, continuationId }
    let id := registry.freshId
    (id, {
      nextId := id + 1
      calls :=
        if (registry.calls.lookup id).isSome then registry.calls
        else registry.calls ++ [(id, call)] })

def take (id : UInt64) : Option (PendingCall × PendingCallRegistry) :=
  (registry.calls.lookup id).map fun call =>
    (call, { registry with calls := registry.calls.eraseP fun entry => id == entry.1 })

/-- `true` is returned if a handler is called. -/
def complete (response : Response) : List Invocation × PendingCallRegistry :=
  match registry.take response.requestId with
  | none => ([], registry)
  | some (call, rest) =>
    let coroutineId :=
      if response.coroutineId = 0 then call.continuationId else response.coroutineId
    ([⟨call.handler, { response with coroutineId }⟩], rest)

def cancel (id : UInt64) (error : String) : List Invocation × PendingCallRegistry :=
  match registry.take id with
  | none => ([], registry)
  | some (call, rest) =>
    ([⟨call.handler,
      { requestId := id, coroutineId := call.continuationId, status := .canceled, error }⟩], rest)

def Expired (now : Int) (call : PendingCall) : Prop := call.deadline ≠ 0 ∧ call.deadline ≤ now

instance (now : Int) (call : PendingCall) : Decidable (Expired now call) :=
  inferInstanceAs (Decidable (_ ∧ _))

/-- The table has no order of its own: here it is that of the calls. -/
def expire (now : Int) : List Invocation × PendingCallRegistry :=
  ((registry.calls.filter fun entry => Expired now entry.2).map fun entry =>
      ⟨entry.2.handler,
        { requestId := entry.1, coroutineId := entry.2.continuationId, status := .timeout,
          error := "timeout" }⟩,
    { registry with calls := registry.calls.filter fun entry => ¬ Expired now entry.2 })

def waiting : List Nat :=
  registry.calls.map fun entry => entry.2.handler

end

/-- Calls leave the table, and the handler of each is called, with the number of the call in the
response. -/
structure Answers (before after : PendingCallRegistry) (out : List Invocation) : Prop where
  waiting : (after.waiting ++ out.map Invocation.handler).Perm before.waiting
  calls : after.calls.Sublist before.calls
  own : ∀ invocation ∈ out, ∃ entry ∈ before.calls,
    entry.2.handler = invocation.handler ∧ entry.1 = invocation.response.requestId

variable {registry rest : PendingCallRegistry} {id : UInt64}

theorem answers_nil (registry : PendingCallRegistry) : Answers registry registry [] :=
  ⟨by simp, .refl _, by simp⟩

theorem freshId_ne_zero (registry : PendingCallRegistry) : registry.freshId ≠ 0 := by
  rw [freshId]
  split_ifs with h
  · rw [h]
    decide
  · assumption

theorem perm_of_lookup {calls : List (UInt64 × PendingCall)} (h : calls.lookup id = some call) :
    calls.Perm ((id, call) :: calls.eraseP fun entry => id == entry.1) := by
  induction calls with
  | nil => cases h
  | cons entry calls ih =>
    cases hid : id == entry.1 with
    | true =>
      rw [lookup_cons, hid] at h
      have hentry : entry = (id, call) := Prod.ext (eq_of_beq hid).symm (Option.some.inj h)
      rw [eraseP_cons_of_pos (by simp [hid]), hentry]
    | false =>
      rw [lookup_cons, hid] at h
      rw [eraseP_cons_of_neg (by simp [hid])]
      exact ((ih h).cons entry).trans (.swap _ _ _)

theorem take_eq_some (h : registry.take id = some (call, rest)) :
    registry.calls.Perm ((id, call) :: rest.calls) ∧ rest.calls.Sublist registry.calls := by
  obtain ⟨found, hfound, heq⟩ := Option.map_eq_some_iff.mp h
  cases heq
  exact ⟨perm_of_lookup hfound, eraseP_sublist⟩

theorem answers_take (h : registry.take id = some (call, rest)) (hid : response.requestId = id) :
    Answers registry rest [⟨call.handler, response⟩] := by
  obtain ⟨hperm, hsub⟩ := take_eq_some h
  refine ⟨?_, hsub, ?_⟩
  · refine .trans ?_ (hperm.map fun entry => entry.2.handler).symm
    exact perm_append_singleton _ _
  · intro invocation hmem
    cases mem_singleton.mp hmem
    exact ⟨(id, call), hperm.mem_iff.mpr mem_cons_self, rfl, hid.symm⟩

theorem answers_complete (registry : PendingCallRegistry) (response : Response) :
    Answers registry (registry.complete response).2 (registry.complete response).1 := by
  rw [complete]
  cases htake : registry.take response.requestId with
  | none => exact answers_nil registry
  | some found => exact answers_take htake rfl

theorem answers_cancel (registry : PendingCallRegistry) (id : UInt64) (error : String) :
    Answers registry (registry.cancel id error).2 (registry.cancel id error).1 := by
  rw [cancel]
  cases htake : registry.take id with
  | none => exact answers_nil registry
  | some found => exact answers_take htake rfl

theorem answers_expire (registry : PendingCallRegistry) (now : Int) :
    Answers registry (registry.expire now).2 (registry.expire now).1 := by
  refine ⟨?_, filter_sublist, ?_⟩
  · have hsplit := filter_append_perm (fun entry => decide (Expired now entry.2))
      registry.calls
    have hperm := (perm_append_comm.trans hsplit).map fun entry => entry.2.handler
    rw [map_append] at hperm
    simpa [expire, waiting, Function.comp_def] using hperm
  · intro invocation hmem
    obtain ⟨entry, hentry, rfl⟩ := mem_map.mp hmem
    exact ⟨entry, mem_of_mem_filter hentry, rfl, rfl⟩

section Keys

variable (hkeys : (registry.calls.map Prod.fst).Nodup)
include hkeys

theorem lookup_eq_some_iff :
    registry.calls.lookup id = some call ↔ (id, call) ∈ registry.calls := by
  constructor
  · exact fun h => (perm_of_lookup h).mem_iff.mpr mem_cons_self
  · intro hmem
    cases hlookup : registry.calls.lookup id with
    | none =>
      have hnone := lookup_eq_none_iff.mp hlookup (id, call) hmem
      simp at hnone
    | some found =>
      have hfound := (perm_of_lookup hlookup).mem_iff.mpr mem_cons_self
      have hsame := inj_on_of_nodup_map hkeys hfound hmem rfl
      rw [(Prod.mk.inj hsame).2]

/-- The handler of the call with the number of the response is called. -/
theorem mem_complete_iff (response : Response) :
    handler ∈ (registry.complete response).1.map Invocation.handler ↔
      ∃ call, (response.requestId, call) ∈ registry.calls ∧ call.handler = handler := by
  simp only [← lookup_eq_some_iff hkeys]
  rw [complete, take]
  cases registry.calls.lookup response.requestId with
  | none | some call => simp [eq_comm]

theorem mem_cancel_iff (id : UInt64) (error : String) :
    handler ∈ (registry.cancel id error).1.map Invocation.handler ↔
      ∃ call, (id, call) ∈ registry.calls ∧ call.handler = handler := by
  simp only [← lookup_eq_some_iff hkeys]
  rw [cancel, take]
  cases registry.calls.lookup id with
  | none | some call => simp [eq_comm]

omit hkeys in
theorem mem_expire_iff (now : Int) :
    handler ∈ (registry.expire now).1.map Invocation.handler ↔
      ∃ entry ∈ registry.calls, Expired now entry.2 ∧ entry.2.handler = handler := by
  simp [expire, and_assoc]

end Keys

end PendingCallRegistry

end ServerLib.Rpc
