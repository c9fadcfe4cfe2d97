import KeyLifecycle.Store.Vault

/-!
# Letting a call run

`Vault.poll` gives a call its turn: it takes steps for as long as it can, and is cancelled if it is
not through although its time is used up. So whatever is done at the very moment of the deadline
still counts. The turn is made of the moves `Vault.step` and `Vault.expire` alone.

A turn does not last for ever. Everybody who has a turn at one moment draws on one allowance: to
look whether one is to fail, to be given the table, to insert, to delete and to end a pause each
takes one unit of it, while the end of a transaction is free. Whoever finds the allowance used up
stays where they are until the next turn. A call that is stopped so is cancelled, too, if its time
is used up; but one that found nothing left when its turn began is not.
-/

namespace KeyLifecycle.Vault

/-- What is left of an allowance, and the vault. -/
abbrev Turn : Type := Nat × Vault

/-- What a call is doing. -/
def phase? (v : Vault) (i : Nat) : Option Phase := v.calls[i]?.map (·.phase)

/-- A call takes one step if it is in a phase of some kind and something is left of the allowance;
the step takes so much of it. -/
def stage (i : Nat) (kind : Vault → Phase → Bool) (price : Nat) (t : Turn) : Turn :=
  if 0 < t.1 && (t.2.phase? i).any (kind t.2) then (t.1 - price, t.2.step i) else t

/-- Whether a phase is that of a call that looks whether it is to fail. -/
def checks (_ : Vault) : Phase → Bool
  | .checking => true
  | _ => false

/-- Whether a phase is that of a call about to ask for the table. -/
def asks (_ : Vault) : Phase → Bool
  | .asking => true
  | _ => false

/-- Whether a phase is that of a call that has been given the table. -/
def isAdmitted (i : Nat) (v : Vault) : Phase → Bool
  | .waiting => v.lock.holder = some i
  | _ => false

/-- Whether a phase is a pause that is over. -/
def wakes (v : Vault) : Phase → Bool
  | .paused wake _ _ => wake ≤ v.now
  | _ => false

/-- Whether the allowance lets a transaction go on: what is finished refuses everything for free. -/
def mayStage (handle : Handle) (left : Nat) : Bool := !handle.isOpen || 0 < left

/-- What is left of an allowance after an insert or a delete. -/
def afterStaging (handle : Handle) (left : Nat) : Nat := if handle.isOpen then left - 1 else left

/-- A call takes steps for as long as its work, which it is inside of, and the allowance let it. -/
def carry (i : Nat) : Work Reply → Handle → Turn → Turn
  | .done _, _, (left, v) => (left, v.step i)
  | .fail _, _, (left, v) => (left, v.step i)
  | .insert owner material next, handle, (left, v) =>
    if mayStage handle left then
      match handle.insert v.plan owner material with
      | .ok (credential, staged) =>
        carry i (next credential) staged (afterStaging handle left, v.step i)
      | .error _ => (afterStaging handle left, (v.step i).step i)
    else (left, v)
  | .delete owner key next, handle, (left, v) =>
    if mayStage handle left then
      match handle.delete v.plan owner key with
      | .ok (row, staged) =>
        carry i (next row.isSome) staged (afterStaging handle left, v.step i)
      | .error _ => (afterStaging handle left, (v.step i).step i)
    else (left, v)
  | .commit next, handle, (left, v) =>
    match handle.commit with
    | .ok (_, handle) => carry i next handle (left, v.step i)
    | .error _ => (left, (v.step i).step i)
  | .rollback next, handle, (left, v) =>
    match handle.rollback with
    | .ok handle => carry i next handle (left, v.step i)
    | .error _ => (left, (v.step i).step i)
  | .pause duration next, handle, (left, v) =>
    if duration = 0 ∧ 0 < left then carry i next handle (left - 1, (v.step i).step i)
    else (left, v.step i)

/-- A call that is inside its transaction takes steps for as long as it can. -/
def proceed (i : Nat) (t : Turn) : Turn :=
  match t.2.phase? i with
  | some (.working work handle) => carry i work handle t
  | _ => t

/-- A call takes steps for as long as it can. -/
def drain (i : Nat) (t : Turn) : Turn :=
  let t := stage i checks 1 t
  let t := stage i asks 0 t
  let t := stage i (isAdmitted i) 1 t
  let t := stage i wakes 1 t
  proceed i t

/-- A call has its turn, with what is left of the allowance. -/
def poll (v : Vault) (i : Nat) (left : Nat) : Turn :=
  let (rest, v) := drain i (left, v)
  if 0 < left && v.isOverdue i then (rest - 1, v.expire i) else (rest, v)

end KeyLifecycle.Vault
