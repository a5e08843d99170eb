import RecordMapper.Error

/-!
# Computations that succeed
-/

set_option autoImplicit false

namespace RecordMapper.Result
variable {α β : Type}

theorem bind_eq_ok_iff {x : Result α} {f : α → Result β} {b : β} :
    x >>= f = .ok b ↔ ∃ a, x = .ok a ∧ f a = .ok b := by
  cases x with
  | error e => exact ⟨nofun, fun ⟨_, h, _⟩ => absurd h nofun⟩
  | ok a =>
    constructor
    · intro h
      exact ⟨a, rfl, h⟩
    · rintro ⟨b, hb, h⟩
      obtain rfl := Except.ok.inj hb
      exact h

theorem bind_eq_error_iff {x : Result α} {f : α → Result β} {e : Error} :
    x >>= f = .error e ↔ x = .error e ∨ ∃ a, x = .ok a ∧ f a = .error e := by
  cases x with
  | error first =>
    constructor
    · intro h
      obtain rfl : first = e := Except.error.inj h
      exact .inl rfl
    · rintro (h | ⟨a, ha, -⟩)
      · obtain rfl := Except.error.inj h
        rfl
      · cases ha
  | ok a =>
    constructor
    · intro h
      exact .inr ⟨a, rfl, h⟩
    · rintro (h | ⟨b, hb, h⟩)
      · cases h
      · obtain rfl := Except.ok.inj hb
        exact h

theorem bind_congr {x : Result α} {f g : α → Result β} (h : ∀ a, x = .ok a → f a = g a) :
    x >>= f = x >>= g := by
  cases x with
  | error e => rfl
  | ok a => exact h a rfl

theorem map_eq_ok_iff {x : Result α} {f : α → β} {b : β} :
    x.map f = .ok b ↔ ∃ a, x = .ok a ∧ f a = b := by
  cases x with
  | error e => exact ⟨nofun, fun ⟨_, h, _⟩ => absurd h nofun⟩
  | ok a =>
    constructor
    · intro h
      exact ⟨a, rfl, Except.ok.inj h⟩
    · rintro ⟨c, hc, rfl⟩
      obtain rfl := Except.ok.inj hc
      rfl

theorem map_eq_error_iff {x : Result α} {f : α → β} {e : Error} :
    x.map f = .error e ↔ x = .error e := by
  cases x with
  | error first =>
    constructor
    · intro h
      obtain rfl : first = e := Except.error.inj h
      rfl
    · intro h
      obtain rfl := Except.error.inj h
      rfl
  | ok a => exact ⟨nofun, nofun⟩

theorem exists_eq_ok_of_isSome {x : Result α} (h : x.toOption.isSome = true) : ∃ a, x = .ok a := by
  cases x with
  | error e => cases h
  | ok a => exact ⟨a, rfl⟩

theorem eq_ok_of_toOption_eq_some {x : Result α} {a : α} (h : x.toOption = some a) : x = .ok a := by
  cases x with
  | error e => cases h
  | ok b =>
    obtain rfl := Option.some.inj h
    rfl

theorem exists_of_ite_bind_eq_ok {c : Prop} [Decidable c] {x y : Result α} {f : α → Result β}
    {b : β} (h : (if c then x >>= f else y >>= f) = .ok b) :
    ∃ a, (if c then x else y) = .ok a ∧ f a = .ok b := by
  split at h
  · next hc =>
    rw [if_pos hc]
    exact bind_eq_ok_iff.mp h
  · next hc =>
    rw [if_neg hc]
    exact bind_eq_ok_iff.mp h

theorem exists_of_mapM_eq_ok {f : α → Result β} {xs : List α} {ys : List β}
    (h : xs.mapM f = .ok ys) {y : β} (hy : y ∈ ys) : ∃ x ∈ xs, f x = .ok y := by
  induction xs generalizing ys with
  | nil =>
    obtain rfl : [] = ys := Except.ok.inj h
    exact absurd hy List.not_mem_nil
  | cons x rest ih =>
    rw [List.mapM_cons] at h
    obtain ⟨first, hfirst, h⟩ := bind_eq_ok_iff.mp h
    obtain ⟨others, hothers, h⟩ := bind_eq_ok_iff.mp h
    obtain rfl : first :: others = ys := Except.ok.inj h
    rcases List.mem_cons.mp hy with rfl | hy
    · exact ⟨x, List.mem_cons_self, hfirst⟩
    · obtain ⟨x, hx, hresult⟩ := ih hothers hy
      exact ⟨x, List.mem_cons_of_mem _ hx, hresult⟩

theorem exists_mem_of_mapM_eq_ok {f : α → Result β} {xs : List α} {ys : List β}
    (h : xs.mapM f = .ok ys) {x : α} (hx : x ∈ xs) : ∃ y ∈ ys, f x = .ok y := by
  induction xs generalizing ys with
  | nil => exact absurd hx List.not_mem_nil
  | cons first rest ih =>
    rw [List.mapM_cons] at h
    obtain ⟨y, hy, h⟩ := bind_eq_ok_iff.mp h
    obtain ⟨others, hothers, h⟩ := bind_eq_ok_iff.mp h
    obtain rfl : y :: others = ys := Except.ok.inj h
    rcases List.mem_cons.mp hx with rfl | hx
    · exact ⟨y, List.mem_cons_self, hy⟩
    · obtain ⟨z, hz, hresult⟩ := ih hothers hx
      exact ⟨z, List.mem_cons_of_mem _ hz, hresult⟩

theorem exists_of_mem_of_mapM_eq_ok {f : α → Result β} {xs : List α} {ys : List β}
    (h : xs.mapM f = .ok ys) {x : α} (hx : x ∈ xs) : ∃ y, f x = .ok y := by
  obtain ⟨y, -, hy⟩ := exists_mem_of_mapM_eq_ok h hx
  exact ⟨y, hy⟩

theorem exists_of_mapM_eq_error {f : α → Result β} {xs : List α} {e : Error}
    (h : xs.mapM f = .error e) : ∃ x ∈ xs, f x = .error e := by
  induction xs with
  | nil => cases h
  | cons x rest ih =>
    rw [List.mapM_cons] at h
    cases hx : f x with
    | error first =>
      rw [hx] at h
      obtain rfl : first = e := Except.error.inj h
      exact ⟨x, List.mem_cons_self, hx⟩
    | ok y =>
      rw [hx] at h
      cases hrest : rest.mapM f with
      | error first =>
        rw [hrest] at h
        obtain rfl : first = e := Except.error.inj h
        obtain ⟨z, hz, hfailed⟩ := ih hrest
        exact ⟨z, List.mem_cons_of_mem x hz, hfailed⟩
      | ok ys =>
        rw [hrest] at h
        cases h

/-- What holds between each argument and its result holds between the lists. -/
theorem map_eq_of_mapM_eq_ok {γ : Type} {f : α → Result β} {g : α → γ} {k : β → γ} {xs : List α}
    {ys : List β} (h : xs.mapM f = .ok ys) (hf : ∀ x y, f x = .ok y → g x = k y) :
    xs.map g = ys.map k := by
  induction xs generalizing ys with
  | nil =>
    obtain rfl : [] = ys := Except.ok.inj h
    rfl
  | cons x rest ih =>
    rw [List.mapM_cons] at h
    obtain ⟨y, hy, h⟩ := bind_eq_ok_iff.mp h
    obtain ⟨others, hothers, h⟩ := bind_eq_ok_iff.mp h
    obtain rfl : y :: others = ys := Except.ok.inj h
    rw [List.map_cons, List.map_cons, hf x y hy, ih hothers]

/-- A list of computations succeeds if each does; what belongs to its arguments is collected. -/
theorem exists_mapM_eq_ok {γ : Type} {f : α → Result γ} {P : α → β → Prop} {g : α × β → γ}
    {xs : List α} (h : ∀ x ∈ xs, ∃ y, P x y ∧ f x = .ok (g (x, y))) :
    ∃ pairs : List (α × β), pairs.map (·.1) = xs ∧ (∀ pair ∈ pairs, P pair.1 pair.2) ∧
      xs.mapM f = .ok (pairs.map g) := by
  induction xs with
  | nil => exact ⟨[], rfl, nofun, rfl⟩
  | cons x rest ih =>
    obtain ⟨y, hy, hx⟩ := h x List.mem_cons_self
    obtain ⟨pairs, hpairs, hall, hrest⟩ := ih fun z hz => h z (List.mem_cons_of_mem x hz)
    refine ⟨(x, y) :: pairs, by rw [List.map_cons, hpairs], ?_, ?_⟩
    · exact List.forall_mem_cons.mpr ⟨hy, hall⟩
    · rw [List.mapM_cons, hx, hrest]
      rfl

theorem map_bind_congr {γ δ : Type} {g : α → γ} {k : β → δ} {x x' : Result α}
    {f f' : α → Result β} (hx : x.map g = x'.map g)
    (hf : ∀ a a', g a = g a' → (f a).map k = (f' a').map k) :
    (x >>= f).map k = (x' >>= f').map k := by
  cases x with
  | error e =>
    cases x' with
    | error e' =>
      obtain rfl := Except.error.inj hx
      rfl
    | ok a' => cases hx
  | ok a =>
    cases x' with
    | error e' => cases hx
    | ok a' => exact hf a a' (Except.ok.inj hx)

theorem map_bind_right_congr {γ : Type} {k : β → γ} (x : Result α) {f f' : α → Result β}
    (h : ∀ a, (f a).map k = (f' a).map k) : (x >>= f).map k = (x >>= f').map k := by
  cases x with
  | error e => rfl
  | ok a => exact h a

/-- What is seen from `g` agrees where `g` does. -/
theorem map_congr_of_factor {γ δ : Type} {g : α → γ} {k : α → δ} (seen : γ → δ)
    (hseen : ∀ a, seen (g a) = k a) {x x' : Result α} (h : x.map g = x'.map g) :
    x.map k = x'.map k := by
  have hmap (x : Result α) : x.map k = (x.map g).map seen := by
    cases x with
    | error e => rfl
    | ok a => exact congrArg Except.ok (hseen a).symm
  rw [hmap x, hmap x', h]

theorem map_mapM_congr {γ : Type} {g : β → γ} {f f' : α → Result β} {xs : List α}
    (h : ∀ x ∈ xs, (f x).map g = (f' x).map g) :
    (xs.mapM f).map (List.map g) = (xs.mapM f').map (List.map g) := by
  induction xs with
  | nil => rfl
  | cons x rest ih =>
    rw [List.mapM_cons, List.mapM_cons]
    refine map_bind_congr (h x List.mem_cons_self) ?_
    intro y y' hy
    refine map_bind_congr (ih fun z hz => h z (List.mem_cons_of_mem x hz)) ?_
    intro ys ys' hys
    change Except.ok (g y :: ys.map g) = Except.ok (g y' :: ys'.map g)
    rw [hy, hys]

end RecordMapper.Result
