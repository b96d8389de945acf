import Mathlib.Data.List.Forall2

/-!
# Results that may be errors

How a chain of steps and a list of steps come to a result: what every step came to if all succeed,
and the error of the first one that fails.
-/

namespace Branchwork

variable {ε α β : Type}

theorem bind_eq_ok {x : Except ε α} {f : α → Except ε β} {b : β} :
    x >>= f = .ok b ↔ ∃ a, x = .ok a ∧ f a = .ok b := by
  constructor
  · intro h
    cases x with
    | error e => cases h
    | ok a => exact ⟨a, rfl, h⟩
  · rintro ⟨a, rfl, h⟩
    exact h

theorem bind_eq_error {x : Except ε α} {f : α → Except ε β} {e : ε} :
    x >>= f = .error e ↔ x = .error e ∨ ∃ a, x = .ok a ∧ f a = .error e := by
  constructor
  · intro h
    cases x with
    | error e' => cases h; exact .inl rfl
    | ok a => exact .inr ⟨a, rfl, h⟩
  · rintro (rfl | ⟨a, rfl, h⟩)
    · rfl
    · exact h

/-- Behind a result that always goes on only the result can fail. -/
theorem bind_isOk_iff {x : Except ε α} {f : α → Except ε β} (goes_on : ∀ a, ∃ b, f a = .ok b) :
    (∃ b, x >>= f = .ok b) ↔ ∃ a, x = .ok a := by
  constructor
  · rintro ⟨b, h⟩
    obtain ⟨a, ok, -⟩ := bind_eq_ok.mp h
    exact ⟨a, ok⟩
  · rintro ⟨a, ok⟩
    obtain ⟨b, last⟩ := goes_on a
    exact ⟨b, bind_eq_ok.mpr ⟨a, ok, last⟩⟩

theorem map_eq_ok {x : Except ε α} {f : α → β} {b : β} :
    x.map f = .ok b ↔ ∃ a, x = .ok a ∧ f a = b := by
  cases x <;> simp [Except.map]

theorem map_eq_error {x : Except ε α} {f : α → β} {e : ε} : x.map f = .error e ↔ x = .error e := by
  cases x <;> simp [Except.map]

theorem mapError_eq_ok {ε' : Type} {x : Except ε α} {f : ε → ε'} {a : α} :
    x.mapError f = .ok a ↔ x = .ok a := by
  cases x <;> simp [Except.mapError]

theorem mapError_eq_error {ε' : Type} {x : Except ε α} {f : ε → ε'} {e' : ε'} :
    x.mapError f = .error e' ↔ ∃ e, x = .error e ∧ f e = e' := by
  cases x <;> simp [Except.mapError]

theorem mapError_id (x : Except ε α) : x.mapError id = x := by
  cases x <;> rfl

theorem mapM_eq_ok {f : α → Except ε β} {xs : List α} {ys : List β} :
    xs.mapM f = .ok ys ↔ List.Forall₂ (fun x y => f x = .ok y) xs ys := by
  induction xs generalizing ys with
  | nil =>
    constructor
    · intro h; cases h; exact .nil
    · intro h; cases h; rfl
  | cons x xs ih =>
    rw [List.mapM_cons, bind_eq_ok]
    constructor
    · rintro ⟨y, first, h⟩
      obtain ⟨ys', rest, last⟩ := bind_eq_ok.mp h
      cases last
      exact .cons first (ih.mp rest)
    · intro h
      cases h with
      | cons first rest => exact ⟨_, first, bind_eq_ok.mpr ⟨_, ih.mpr rest, rfl⟩⟩

/-- Every member of a list has its counterpart in the other one. -/
theorem exists_of_forall₂ {R : α → β → Prop} {xs : List α} {ys : List β} (h : List.Forall₂ R xs ys)
    {x : α} (mem : x ∈ xs) : ∃ y ∈ ys, R x y := by
  induction h with
  | nil => cases mem
  | cons first _ ih =>
    rcases List.mem_cons.mp mem with rfl | mem
    · exact ⟨_, List.mem_cons_self, first⟩
    · obtain ⟨y, mem', related⟩ := ih mem
      exact ⟨y, List.mem_cons_of_mem _ mem', related⟩

/-- Every member of a result comes from a member of the list. -/
theorem exists_of_mapM_eq_ok {f : α → Except ε β} {xs : List α} {ys : List β} {y : β}
    (h : xs.mapM f = .ok ys) (mem : y ∈ ys) : ∃ x ∈ xs, f x = .ok y :=
  exists_of_forall₂ (mapM_eq_ok.mp h).flip mem

theorem mem_of_mapM_eq_ok {f : α → Except ε β} {xs : List α} {ys : List β}
    (h : xs.mapM f = .ok ys) : ∀ x ∈ xs, ∃ y ∈ ys, f x = .ok y :=
  fun _ mem => exists_of_forall₂ (mapM_eq_ok.mp h) mem

theorem mapM_isOk {f : α → Except ε β} {xs : List α} (all : ∀ x ∈ xs, ∃ y, f x = .ok y) :
    ∃ ys, xs.mapM f = .ok ys := by
  induction xs with
  | nil => exact ⟨[], rfl⟩
  | cons x xs ih =>
    obtain ⟨y, first⟩ := all x List.mem_cons_self
    obtain ⟨ys, rest⟩ := ih fun other mem => all other (List.mem_cons_of_mem _ mem)
    exact ⟨y :: ys, by rw [List.mapM_cons, first, rest]; rfl⟩

theorem forM_eq_ok {f : α → Except ε Unit} {xs : List α} :
    xs.forM f = .ok () ↔ ∀ x ∈ xs, f x = .ok () := by
  induction xs with
  | nil => exact ⟨fun _ _ mem => (List.not_mem_nil mem).elim, fun _ => rfl⟩
  | cons x xs ih =>
    rw [show (x :: xs).forM f = f x >>= fun _ => xs.forM f from rfl, bind_eq_ok]
    constructor
    · rintro ⟨_, first, rest⟩ y mem
      rcases List.mem_cons.mp mem with rfl | mem
      · exact first
      · exact ih.mp rest y mem
    · intro all
      exact ⟨(), all x List.mem_cons_self, ih.mpr fun y mem => all y (List.mem_cons_of_mem _ mem)⟩

theorem eq_ok_of_toOption {r : Except ε α} {x : α} (h : r.toOption = some x) : r = .ok x := by
  cases r with
  | error e => cases h
  | ok y => exact congrArg Except.ok (Option.some.inj h)

/-- The loop of a filter collects what is kept in front of what it was given, last one first. -/
theorem filterAuxM_eq_ok {f : α → Except ε Bool} {xs acc ys : List α} :
    List.filterAuxM f xs acc = .ok ys ↔ (∀ x ∈ xs, ∃ b, f x = .ok b) ∧
      ys = (xs.filter fun x => (f x).toOption.getD false).reverse ++ acc := by
  induction xs generalizing acc with
  | nil => simp [List.filterAuxM, pure, Except.pure, eq_comm]
  | cons x xs ih =>
    rw [List.filterAuxM, bind_eq_ok]
    simp only [ih]
    constructor
    · rintro ⟨b, first, all, rfl⟩
      refine ⟨fun y mem => ?_, ?_⟩
      · rcases List.mem_cons.mp mem with rfl | mem
        · exact ⟨b, first⟩
        · exact all y mem
      · cases b <;> simp [first, Except.toOption]
    · rintro ⟨all, rfl⟩
      obtain ⟨b, first⟩ := all x List.mem_cons_self
      refine ⟨b, first, fun y mem => all y (List.mem_cons_of_mem _ mem), ?_⟩
      cases b <;> simp [first, Except.toOption]

/-- A list that is filtered by a check: every check has succeeded. -/
theorem filterM_eq_ok {f : α → Except ε Bool} {xs ys : List α} :
    xs.filterM f = .ok ys ↔
      (∀ x ∈ xs, ∃ b, f x = .ok b) ∧ ys = xs.filter fun x => (f x).toOption.getD false := by
  unfold List.filterM
  rw [bind_eq_ok]
  simp only [filterAuxM_eq_ok, List.append_nil]
  constructor
  · rintro ⟨zs, ⟨all, rfl⟩, same⟩
    cases same
    exact ⟨all, List.reverse_reverse _⟩
  · rintro ⟨all, rfl⟩
    exact ⟨_, ⟨all, rfl⟩, congrArg _ (List.reverse_reverse _)⟩

theorem mem_filterM {f : α → Except ε Bool} {xs ys : List α} (h : xs.filterM f = .ok ys) {y : α} :
    y ∈ ys ↔ y ∈ xs ∧ f y = .ok true := by
  obtain ⟨all, rfl⟩ := filterM_eq_ok.mp h
  rw [List.mem_filter]
  refine and_congr_right fun mem => ?_
  obtain ⟨b, check⟩ := all y mem
  simp [check, Except.toOption]

theorem forall₂_replicate {R : α → β → Prop} {a : α} {b : β} (h : R a b) (n : Nat) :
    List.Forall₂ R (List.replicate n a) (List.replicate n b) := by
  induction n with
  | zero => exact .nil
  | succ n ih => exact .cons h ih

/-! ## Two results side by side -/

/-- Two results with one error, or two values in relation to each other. -/
inductive SideBySide {β : Type} (R : α → β → Prop) : Except ε α → Except ε β → Prop
  | ok {a b} : R a b → SideBySide R (.ok a) (.ok b)
  | error (e) : SideBySide R (.error e) (.error e)

section

variable {γ δ : Type} {R : α → β → Prop} {S : γ → δ → Prop}

theorem SideBySide.bind {x : Except ε α} {y : Except ε β} {f : α → Except ε γ}
    {g : β → Except ε δ} (first : SideBySide R x y)
    (rest : ∀ a b, R a b → SideBySide S (f a) (g b)) : SideBySide S (x >>= f) (y >>= g) := by
  cases first with
  | ok related => exact rest _ _ related
  | error e => exact .error e

theorem SideBySide.map {x : Except ε α} {y : Except ε β} {f : α → γ} {g : β → δ}
    (first : SideBySide R x y) (each : ∀ a b, R a b → S (f a) (g b)) :
    SideBySide S (x.map f) (y.map g) := by
  cases first with
  | ok related => exact .ok (each _ _ related)
  | error e => exact .error e

theorem SideBySide.mapError {ε' : Type} {x : Except ε α} {y : Except ε β} {f : ε → ε'}
    (first : SideBySide R x y) : SideBySide R (x.mapError f) (y.mapError f) := by
  cases first with
  | ok related => exact .ok related
  | error e => exact .error (f e)

theorem sideBySide_mapM {f : α → Except ε γ} {g : β → Except ε δ} {xs : List α} {ys : List β}
    (related : List.Forall₂ R xs ys) (each : ∀ a b, R a b → SideBySide S (f a) (g b)) :
    SideBySide (List.Forall₂ S) (xs.mapM f) (ys.mapM g) := by
  induction related with
  | nil => exact .ok .nil
  | cons first _ ih =>
    rw [List.mapM_cons, List.mapM_cons]
    exact (each _ _ first).bind fun _ _ first =>
      ih.bind fun _ _ rest => .ok (.cons first rest)

end

/-! ## What a result fails with -/

/-- A result that fails with such errors only, if it fails. -/
def FailsWith (P : ε → Prop) (x : Except ε α) : Prop := ∀ e, x = .error e → P e

section

variable {P : ε → Prop}

theorem failsWith_ok (x : α) : FailsWith P (.ok x : Except ε α) := fun _ h => nomatch h

theorem failsWith_error {e : ε} (h : P e) : FailsWith P (.error e : Except ε α) := by
  rintro _ ⟨⟩
  exact h

theorem FailsWith.bind {x : Except ε α} {f : α → Except ε β} (first : FailsWith P x)
    (rest : ∀ a, x = .ok a → FailsWith P (f a)) : FailsWith P (x >>= f) := by
  cases x with
  | error e => exact failsWith_error (first e rfl)
  | ok a => exact rest a rfl

theorem failsWith_mapM {f : α → Except ε β} (each : ∀ a, FailsWith P (f a)) (xs : List α) :
    FailsWith P (xs.mapM f) := by
  induction xs with
  | nil => exact failsWith_ok []
  | cons x xs ih =>
    rw [List.mapM_cons]
    exact (each x).bind fun _ _ => ih.bind fun _ _ => failsWith_ok _

theorem failsWith_forM {f : α → Except ε Unit} (each : ∀ a, FailsWith P (f a)) (xs : List α) :
    FailsWith P (xs.forM f) := by
  induction xs with
  | nil => exact failsWith_ok ()
  | cons x xs ih => exact (each x).bind fun _ _ => ih

end

/-! ## Faults -/

/-- The error of a result, if it is one. -/
def faultOf : Except ε α → Option ε
  | .ok _ => none
  | .error e => some e

theorem faultOf_eq_none {x : Except ε α} : faultOf x = none ↔ ∃ a, x = .ok a := by
  cases x <;> simp [faultOf]

theorem faultOf_eq_some {x : Except ε α} {e : ε} : faultOf x = some e ↔ x = .error e := by
  cases x <;> simp [faultOf]

theorem faultOf_bind (x : Except ε α) (f : α → Except ε β) :
    faultOf (x >>= f) = match x with
      | .ok a => faultOf (f a)
      | .error e => some e := by
  cases x <;> rfl

/-- A list of steps fails with the fault of the first step that has one. -/
theorem faultOf_mapM (f : α → Except ε β) (xs : List α) :
    faultOf (xs.mapM f) = xs.findSome? fun x => faultOf (f x) := by
  induction xs with
  | nil => rfl
  | cons x xs ih =>
    rw [List.mapM_cons, List.findSome?_cons]
    cases first : f x with
    | error e => rfl
    | ok y =>
      rw [show faultOf (Except.ok y : Except ε β) = none from rfl]
      simp only [← ih]
      cases rest : xs.mapM f <;> rfl

theorem exists_of_mapM_eq_error {f : α → Except ε β} {xs : List α} {e : ε}
    (h : xs.mapM f = .error e) : ∃ x ∈ xs, f x = .error e := by
  have found := faultOf_mapM f xs
  rw [h] at found
  obtain ⟨x, mem, fails⟩ := List.exists_of_findSome?_eq_some found.symm
  exact ⟨x, mem, faultOf_eq_some.mp fails⟩

/-- A list of steps fails with the error of a step before which all succeed. -/
theorem mapM_eq_error_iff {f : α → Except ε β} {xs : List α} {e : ε} : xs.mapM f = .error e ↔
    ∃ before x after, xs = before ++ x :: after ∧ (∀ y ∈ before, ∃ b, f y = .ok b) ∧
      f x = .error e := by
  rw [← faultOf_eq_some, faultOf_mapM, List.findSome?_eq_some_iff]
  simp only [faultOf_eq_some, faultOf_eq_none]
  refine exists_congr fun before => exists_congr fun x => exists_congr fun after => ?_
  exact and_congr_right fun _ => and_comm

theorem exists_of_filterM_eq_error {f : α → Except ε Bool} {xs : List α} {e : ε}
    (h : xs.filterM f = .error e) : ∃ x ∈ xs, f x = .error e := by
  have aux : ∀ xs acc, List.filterAuxM f xs acc = .error e → ∃ x ∈ xs, f x = .error e := by
    intro xs
    induction xs with
    | nil => intro acc h; cases h
    | cons x xs ih =>
      intro acc h
      rw [List.filterAuxM] at h
      rcases bind_eq_error.mp h with fails | ⟨b, -, later⟩
      · exact ⟨x, List.mem_cons_self, fails⟩
      · obtain ⟨y, mem, fails⟩ := ih _ later
        exact ⟨y, List.mem_cons_of_mem _ mem, fails⟩
  unfold List.filterM at h
  rcases bind_eq_error.mp h with fails | ⟨ys, -, last⟩
  · exact aux xs [] fails
  · cases last

end Branchwork
