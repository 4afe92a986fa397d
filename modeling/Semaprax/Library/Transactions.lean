/-
**Transactions that keep a copy.**

A state is changed by writes, some of them within a transaction. The account of a history of moves is
the list of the writes that are durable, and that of the writes of the open transaction, if there is
one. An implementation has the current state and, while a transaction is open, a copy of the state in
which it began.

* `Account.step` — what becomes of the writes at each move.
* `replay` — the state that some writes lead to.
* `Backed` — the current state is that of all the writes, and the copy that of the durable ones.
* `Backed.begin`, `Backed.write`, `Backed.commit`, `Backed.abandon` — the moves of an implementation.
* `Backed.stale_iff` — when a transaction may be dropped without going back to the copy.
-/

import Mathlib

namespace Library

variable {S W : Type*}

/-- The state that some writes lead to. -/
def replay (apply : W → S → S) (start : S) (writes : List W) : S :=
  writes.foldl (fun state write => apply write state) start

theorem replay_append (apply : W → S → S) (start : S) (writes more : List W) :
    replay apply start (writes ++ more) = replay apply (replay apply start writes) more :=
  List.foldl_append

/-- A move of a history. A transaction is abandoned when it ends in any way but by a commit. -/
inductive AccountMove (W : Type*)
  | begin
  | commit
  | abandon
  | write (write : W)

/-- The writes that are durable, and those of the open transaction. -/
structure Account (W : Type*) where
  durable : List W
  pending : Option (List W)

namespace Account

/-- What becomes of the writes. A write outside a transaction is durable at once. -/
def step (account : Account W) : AccountMove W → Account W
  | .begin => ⟨account.durable, some []⟩
  | .commit => ⟨account.durable ++ account.pending.getD [], none⟩
  | .abandon => ⟨account.durable, none⟩
  | .write write =>
    match account.pending with
    | none => ⟨account.durable ++ [write], none⟩
    | some pending => ⟨account.durable, some (pending ++ [write])⟩

/-- The writes that can be seen. -/
def visible (account : Account W) : List W := account.durable ++ account.pending.getD []

end Account

/-- The current state is that of the visible writes, and the copy is kept while a transaction is open
and is that of the durable ones. -/
structure Backed (apply : W → S → S) (start current : S) (copy : Option S) (account : Account W) :
    Prop where
  current : current = replay apply start account.visible
  copy : copy = account.pending.map fun _ => replay apply start account.durable

namespace Backed

variable {apply : W → S → S} {start current : S} {copy : Option S} {account : Account W}

theorem new : Backed apply start start none ⟨[], none⟩ := ⟨rfl, rfl⟩

section Backed

variable (backed : Backed apply start current copy account)

include backed

theorem open_iff : copy.isSome = account.pending.isSome := by
  rw [backed.copy, Option.isSome_map]

omit backed in
theorem begin (backed : Backed apply start current none account) :
    Backed apply start current (some current) (account.step .begin) := by
  have closed : account.pending = none := Option.map_eq_none_iff.mp backed.copy.symm
  have same : current = replay apply start account.durable := by
    rw [backed.current, Account.visible, closed, Option.getD_none, List.append_nil]
  refine ⟨?_, ?_⟩
  · show current = replay apply start (account.durable ++ [])
    rw [List.append_nil, same]
  · exact congrArg some same

theorem write (write : W) :
    Backed apply start (apply write current) copy (account.step (.write write)) := by
  obtain ⟨current, copy⟩ := backed
  obtain ⟨durable, pending⟩ := account
  cases pending with
  | none =>
    refine ⟨?_, copy⟩
    show apply write _ = replay apply start ((durable ++ [write]) ++ [])
    rw [List.append_nil, replay_append, current, Account.visible, Option.getD_none, List.append_nil]
    rfl
  | some pending =>
    refine ⟨?_, copy⟩
    show apply write _ = replay apply start (durable ++ (pending ++ [write]))
    rw [← List.append_assoc, replay_append, current]
    rfl

theorem commit : Backed apply start current none (account.step .commit) := by
  refine ⟨?_, rfl⟩
  show current = replay apply start (account.visible ++ [])
  rw [List.append_nil, backed.current]

theorem abandon : Backed apply start (copy.getD current) none (account.step .abandon) := by
  obtain ⟨current, copy⟩ := backed
  obtain ⟨durable, pending⟩ := account
  refine ⟨?_, rfl⟩
  show _ = replay apply start (durable ++ [])
  rw [List.append_nil, copy, current]
  cases pending with
  | none => exact congrArg (replay apply start) (List.append_nil durable)
  | some pending => rfl

/-- A transaction is dropped as it stands, without going back to the copy, exactly when its writes have
come to nothing. -/
theorem stale_iff :
    Backed apply start current none (account.step .abandon) ↔ copy.getD current = current := by
  have clean := backed.abandon
  constructor
  · intro stale
    exact clean.current.trans stale.current.symm
  · intro same
    rw [same] at clean
    exact clean

end Backed

end Backed

end Library
