import Savitools.Strings.CodeUnits

namespace Savitools.Common.Exceptions

open Strings.CodeUnits

/-- What is thrown, with its message. -/
inductive Exception
  | badRequest (message : Text)
  | badGateway (message : Text)
  | notFound (message : Text)
  | payloadTooLarge (message : Text)
  | requestTimeout
  | error (message : Text)
deriving DecidableEq

def Exception.message : Exception → Text
  | .badRequest message | .badGateway message | .notFound message | .payloadTooLarge message | .error message => message
  | .requestTimeout => text "Request timed out"

theorem bind_eq_ok {ε α β : Type} {x : Except ε α} {f : α → Except ε β} {b : β} :
    x.bind f = .ok b ↔ ∃ a, x = .ok a ∧ f a = .ok b := by
  cases x with
  | error error => simp [Except.bind]
  | ok a => simp [Except.bind]

theorem map_eq_ok_iff {ε α β : Type} {x : Except ε α} {f : α → β} {b : β} :
    x.map f = .ok b ↔ ∃ a, x = .ok a ∧ f a = b := by
  cases x with
  | error error => simp [Except.map]
  | ok a => simp [Except.map]

theorem mapError_eq_ok {ε δ α : Type} {x : Except ε α} {f : ε → δ} {a : α} (h : x.mapError f = .ok a) : x = .ok a := by
  cases x with
  | error error => cases h
  | ok b =>
      cases h
      rfl

section Lists

variable {ε α β : Type} {f : α → Except ε β} {xs : List α}

/-- Each value that is read comes from one that is given, and each that is given is read. -/
theorem mapM_ok {ys : List β} (h : xs.mapM f = .ok ys) :
    (∀ x ∈ xs, ∃ y ∈ ys, f x = .ok y) ∧ ∀ y ∈ ys, ∃ x ∈ xs, f x = .ok y := by
  induction xs generalizing ys with
  | nil =>
      cases h
      exact ⟨nofun, nofun⟩
  | cons x xs ih =>
      rw [List.mapM_cons] at h
      obtain ⟨y, hy, hrest⟩ := bind_eq_ok.mp h
      obtain ⟨others, hothers, hys⟩ := bind_eq_ok.mp hrest
      cases hys
      obtain ⟨hgiven, hread⟩ := ih hothers
      constructor
      · rintro x' (_ | ⟨_, hx'⟩)
        · exact ⟨y, List.mem_cons_self, hy⟩
        · obtain ⟨y', hy', hf⟩ := hgiven x' hx'
          exact ⟨y', List.mem_cons_of_mem _ hy', hf⟩
      · rintro y' (_ | ⟨_, hy'⟩)
        · exact ⟨x, List.mem_cons_self, hy⟩
        · obtain ⟨x', hx', hf⟩ := hread y' hy'
          exact ⟨x', List.mem_cons_of_mem _ hx', hf⟩

theorem forall₂_of_mapM {ys : List β} (h : xs.mapM f = .ok ys) : List.Forall₂ (fun x y => f x = .ok y) xs ys := by
  induction xs generalizing ys with
  | nil =>
      cases h
      exact .nil
  | cons x xs ih =>
      rw [List.mapM_cons] at h
      obtain ⟨y, hy, hrest⟩ := bind_eq_ok.mp h
      obtain ⟨others, hothers, hys⟩ := bind_eq_ok.mp hrest
      cases hys
      exact .cons hy (ih hothers)

theorem mapM_toOption {ys : List β} (h : xs.mapM f = .ok ys) : xs.filterMap (fun x => (f x).toOption) = ys := by
  have hall := forall₂_of_mapM h
  clear h
  induction hall with
  | nil => rfl
  | cons hfirst _ ih =>
      rw [List.filterMap_cons, hfirst]
      exact congrArg _ ih

theorem of_forM {f : α → Except ε Unit} (h : xs.forM f = .ok ()) : ∀ x ∈ xs, f x = .ok () := by
  induction xs with
  | nil => exact List.forall_mem_nil _
  | cons x xs ih =>
      obtain ⟨_, hfirst, hrest⟩ := bind_eq_ok.mp (h : (f x).bind (fun _ => xs.forM f) = .ok ())
      exact List.forall_mem_cons.mpr ⟨hfirst, ih hrest⟩

theorem mapM_eq_some {α β : Type} {f : α → Option β} {g : α → β} {xs : List α} (h : ∀ x ∈ xs, f x = some (g x)) :
    xs.mapM f = some (xs.map g) := by
  induction xs with
  | nil => rfl
  | cons x xs ih =>
      rw [List.mapM_cons, h x List.mem_cons_self, ih fun y hy => h y (List.mem_cons_of_mem _ hy)]
      rfl

theorem mapM_eq_map {g : α → β} (h : ∀ x ∈ xs, f x = .ok (g x)) : xs.mapM f = .ok (xs.map g) := by
  induction xs with
  | nil => rfl
  | cons x xs ih =>
      rw [List.mapM_cons, h x List.mem_cons_self, ih fun x' hx' => h x' (List.mem_cons_of_mem _ hx')]
      rfl

theorem mapM_eq_self_iff {f : α → Except ε α} : xs.mapM f = .ok xs ↔ ∀ x ∈ xs, f x = .ok x := by
  refine ⟨fun h => ?_, fun h => (mapM_eq_map (g := id) h).trans (by rw [List.map_id])⟩
  induction xs with
  | nil => exact List.forall_mem_nil _
  | cons x xs ih =>
      rw [List.mapM_cons] at h
      obtain ⟨y, hy, hrest⟩ := bind_eq_ok.mp h
      obtain ⟨others, hothers, hys⟩ := bind_eq_ok.mp hrest
      obtain ⟨rfl, rfl⟩ := List.cons.inj (Except.ok.inj hys)
      exact List.forall_mem_cons.mpr ⟨hy, ih hothers⟩

theorem exists_mapM_ok (h : ∀ x ∈ xs, ∃ y, f x = .ok y) : ∃ ys, xs.mapM f = .ok ys := by
  induction xs with
  | nil => exact ⟨[], rfl⟩
  | cons x xs ih =>
      obtain ⟨y, hy⟩ := h x List.mem_cons_self
      obtain ⟨ys, hys⟩ := ih fun x' hx' => h x' (List.mem_cons_of_mem _ hx')
      rw [List.mapM_cons, hy, hys]
      exact ⟨y :: ys, rfl⟩

/-- A test that may throw holds of some value: of the first that it does not fail for. -/
theorem anyM_eq_ok_true {f : α → Except ε Bool} : xs.anyM f = .ok true ↔
    ∃ before x after, xs = before ++ x :: after ∧ (∀ y ∈ before, f y = .ok false) ∧ f x = .ok true := by
  induction xs with
  | nil =>
      refine iff_of_false nofun ?_
      rintro ⟨before, x, after, hsplit, -⟩
      exact absurd hsplit (by simp)
  | cons x xs ih =>
      rw [List.anyM]
      constructor
      · intro h
        obtain ⟨holds, hx, hrest⟩ := bind_eq_ok.mp h
        cases holds with
        | true => exact ⟨[], x, xs, rfl, nofun, hx⟩
        | false =>
            obtain ⟨before, y, after, hsplit, hbefore, hy⟩ := ih.mp hrest
            exact ⟨x :: before, y, after, congrArg (x :: ·) hsplit, List.forall_mem_cons.mpr ⟨hx, hbefore⟩, hy⟩
      · rintro ⟨before, y, after, hsplit, hbefore, hy⟩
        refine bind_eq_ok.mpr ?_
        cases before with
        | nil =>
            obtain ⟨rfl, -⟩ := List.cons.inj hsplit
            exact ⟨true, hy, rfl⟩
        | cons z before =>
            obtain ⟨rfl, hxs⟩ := List.cons.inj hsplit
            obtain ⟨hx, hrest⟩ := List.forall_mem_cons.mp hbefore
            exact ⟨false, hx, ih.mpr ⟨before, y, after, hxs, hrest, hy⟩⟩

end Lists

end Savitools.Common.Exceptions
