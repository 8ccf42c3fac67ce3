import GolombSet.Proofs.Builder.Determinism
import GolombSet.Proofs.Bytes
import Mathlib.Data.List.Perm.Subperm

set_option autoImplicit false

namespace GolombSet.Builder

def Origin.actions (origin : Origin) : List Action :=
  -- The key comes first, so it counts even if the parameter is too big.
  origin.key.toList.map .setKey ++ origin.parameter.toList.map .setParameter

def Action.key : Action → Option Key
  | setKey key => some key
  | setKeyFromDigest digest => some (Key.ofDigest digest)
  | setParameter _ | add _ | addAll _ | addOutpoint _ | addDigest _ | addScript _ | resolveKey _
  | build _ => none

def Action.fresh : Action → Option Key
  | resolveKey fresh => some fresh
  -- Building asks for the key first, so it leaves one even if there are too many items.
  | build fresh => some fresh
  | setKey _ | setKeyFromDigest _ | setParameter _ | add _ | addAll _ | addOutpoint _ | addDigest _
  | addScript _ => none

def Action.rejected (action : Action) : Option UInt8 :=
  action.parameter.filter (32 < ·)

def firstRejected (history : List Action) : Option UInt8 :=
  history.findSome? Action.rejected

/-- The actions before the first parameter that is too big. -/
def heeded (history : List Action) : List Action :=
  history.takeWhile fun action => action.rejected.isNone

/-- What a history leaves in a builder that was empty before it. -/
structure Leaves (history : List Action) (builder : Builder) : Prop where
  rejected : builder.rejected = firstRejected history
  parameter : builder.parameter.value =
    ((heeded history).filterMap Action.parameter).getLast?.getD 19
  items : builder.items.toList = history.flatMap Action.items
  key : builder.key =
    ((heeded history).filterMap Action.key).getLast?.or ((heeded history).findSome? Action.fresh)

theorem heeded_append (history later : List Action) :
    heeded (history ++ later) =
      if firstRejected history = none then history ++ heeded later else heeded history := by
  induction history with
  | nil => rfl
  | cons action history ih =>
    cases rejected : action.rejected with
    | some p => simp [heeded, firstRejected, rejected]
    | none =>
      simp only [heeded, firstRejected] at ih
      simp only [heeded, firstRejected, List.cons_append, List.takeWhile_cons, rejected, ih,
        Option.isNone_none, List.findSome?_cons, if_true]
      exact apply_ite (List.cons action) ..

theorem heeded_of_none {history : List Action} (accepted : firstRejected history = none) :
    heeded history = history := by
  simpa [accepted, heeded] using heeded_append history []

theorem heeded_singleton (action : Action) :
    heeded [action] = if action.rejected = none then [action] else [] := by
  cases rejected : action.rejected <;> simp [heeded, rejected]

theorem key_of_rejected {action : Action} {p : UInt8} (rejected : action.rejected = some p) :
    action.key = none ∧ action.fresh = none := by
  cases action <;> simp_all [Action.rejected, Action.parameter, Action.key, Action.fresh]

theorem getLast?_filterMap_append_singleton {A B : Type} (f : A → Option B) (list : List A)
    (a : A) : ((list ++ [a]).filterMap f).getLast? = (f a).or (list.filterMap f).getLast? := by
  cases found : f a <;> simp [found]

theorem perform_of_rejected {builder : Builder} {p : UInt8} (rejected : builder.rejected = some p)
    (action : Action) :
    builder.perform action = { builder with items := builder.items ++ action.items } := by
  obtain ⟨key, parameter, items, error⟩ := builder
  obtain rfl : error = some p := rejected
  cases action with
  | add | addOutpoint | addDigest | addScript =>
    simp [perform, add, addOutpoint, addDigest, addScript, Action.items]
  | addAll items => simp [perform, addAll_eq, Action.items]
  | build fresh => simp [perform, build_snd, resolveKey, Action.items]
  | _ => simp [perform, setKey, setKeyFromDigest, setParameter, resolveKey, Action.items]

theorem perform_of_accepted {builder : Builder} (accepted : builder.rejected = none)
    (action : Action) :
    (builder.perform action).rejected = action.rejected ∧
      (builder.perform action).parameter.value =
        (if action.rejected = none then action.parameter else none).getD builder.parameter.value ∧
      (builder.perform action).key = action.key.or (builder.key.or action.fresh) := by
  obtain ⟨key, parameter, items, error⟩ := builder
  obtain rfl : error = none := accepted
  cases action with
  | setParameter p =>
    by_cases big : 32 < p
    · have refused : ¬p ≤ 32 := UInt8.not_le.mpr big
      simp [perform, setParameter, Parameter.check, refused, Action.rejected, Action.parameter,
        Action.key, Action.fresh, Option.filter_some, big]
    · have small : p ≤ 32 := UInt8.not_lt.mp big
      simp [perform, setParameter, Parameter.check, small, Action.rejected, Action.parameter,
        Action.key, Action.fresh, Option.filter_some, big]
  | addAll items => simp [perform, addAll_eq, Action.rejected, Action.parameter, Action.key,
      Action.fresh]
  | build fresh =>
    cases key <;> simp [perform, build_snd, resolveKey, Action.rejected, Action.parameter,
      Action.key, Action.fresh]
  | resolveKey fresh =>
    cases key <;> simp [perform, resolveKey, Action.rejected, Action.parameter, Action.key,
      Action.fresh]
  | _ => simp [perform, setKey, setKeyFromDigest, add, addOutpoint, addDigest, addScript,
      Action.rejected, Action.parameter, Action.key, Action.fresh]

namespace Leaves

variable {history : List Action} {builder : Builder}

theorem nothing : Leaves [] empty where
  rejected := rfl
  parameter := rfl
  items := rfl
  key := rfl

theorem after_error {p : UInt8} (leaves : Leaves history builder)
    (error : firstRejected history = some p) (action : Action) :
    Leaves (history ++ [action]) (builder.perform action) := by
  have before : heeded (history ++ [action]) = heeded history := by
    rw [heeded_append, if_neg (by simp [error])]
  have rejected := leaves.rejected
  constructor
  · rw [perform_of_rejected (rejected.trans error), firstRejected, List.findSome?_append,
      ← firstRejected, error]
    exact rejected.trans error
  · rw [perform_of_rejected (rejected.trans error), before]
    exact leaves.parameter
  · simp [items_perform, leaves.items]
  · rw [perform_of_rejected (rejected.trans error), before]
    exact leaves.key

theorem perform (leaves : Leaves history builder) (action : Action) :
    Leaves (history ++ [action]) (builder.perform action) := by
  cases error : firstRejected history with
  | some p => exact leaves.after_error error action
  | none =>
    obtain ⟨rejected, parameter, key⟩ := perform_of_accepted (leaves.rejected.trans error) action
    -- So far all of the history is heeded; the action is too, unless it is the error.
    have before := heeded_of_none error
    constructor
    · rw [rejected, firstRejected, List.findSome?_append, ← firstRejected, error]
      simp
    · rw [parameter, leaves.parameter, before, heeded_append, if_pos error, heeded_singleton]
      cases action.rejected with
      | some p => simp
      | none =>
        rw [if_pos rfl, if_pos rfl, getLast?_filterMap_append_singleton]
        cases action.parameter <;> rfl
    · simp [items_perform, leaves.items]
    · rw [key, leaves.key, before, heeded_append, if_pos error, heeded_singleton]
      cases rejected : action.rejected with
      | some p => simp [key_of_rejected rejected]
      | none =>
        rw [if_pos rfl, getLast?_filterMap_append_singleton, List.findSome?_append]
        simp [Option.or_assoc]

theorem performAll (leaves : Leaves history builder) (actions : List Action) :
    Leaves (history ++ actions) (builder.performAll actions) := by
  induction actions generalizing history builder with
  | nil => simpa [Builder.performAll] using leaves
  | cons action actions ih => simpa [Builder.performAll] using ih (leaves.perform action)

end Leaves

end GolombSet.Builder
