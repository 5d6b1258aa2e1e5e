import Mathlib.Data.List.Count
import Mathlib.Data.List.Basic

namespace Transitions.Holdings

variable {α β : Type*} [BEq β] {holders : List α} {i : Nat} {a : α}

/-- How often something is in the hands of those who work at the same time. -/
def held (holding : α → List β) (holders : List α) (b : β) : Nat := (holders.flatMap holding).count b

theorem held_append (holding : α → List β) (holders others : List α) (b : β) :
    held holding (holders ++ others) b = held holding holders b + held holding others b := by
  rw [held, List.flatMap_append, List.count_append, held, held]

theorem held_singleton (holding : α → List β) (a : α) (b : β) : held holding [a] b = (holding a).count b := by
  rw [held, List.flatMap_singleton]

/-- When one of them goes on, what it held before is exchanged for what it holds then. -/
theorem held_set (holding : α → List β) (h : holders[i]? = some a) (next : α) (b : β) :
    held holding (holders.set i next) b + (holding a).count b = held holding holders b + (holding next).count b := by
  induction holders generalizing i with
  | nil => cases h
  | cons first holders ih =>
      cases i with
      | zero =>
          rw [List.getElem?_cons_zero, Option.some.injEq] at h
          rw [List.set_cons_zero, held, held, List.flatMap_cons, List.flatMap_cons, List.count_append, List.count_append, h]
          omega
      | succ i =>
          have hrest := ih h
          rw [held, held] at hrest
          rw [List.set_cons_succ, held, held, List.flatMap_cons, List.flatMap_cons, List.count_append, List.count_append]
          omega

end Transitions.Holdings
