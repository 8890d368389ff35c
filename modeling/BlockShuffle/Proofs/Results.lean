import Mathlib

/-!
# Results, one after the other

Steps that may fail make a result if all of them do, and otherwise the failure of the first that has one. For one step
after another that is `bind_eq_ok_iff` and `bind_eq_error_iff`. For a list of them the results stand in the list's order
(`mapM_eq_ok_iff`), so whatever is known of each is known of all.

The library has the monad and its laws, and these lemmas say what the laws leave open: when a sequence is a
result, and with what. They are the inversions that are cited wherever a check in front of an operation, or an
operation made of several that may fail, is taken apart, so that no proof unfolds a bind of its own. Only the
value is of interest here, not an effect: programs over storage have a bind too, whose rules are with the
predicates on programs.
-/

set_option autoImplicit false

namespace BlockShuffle

section Results

variable {ε α β γ : Type}

/-- A sequence of steps succeeds where each of them does. -/
theorem bind_eq_ok_iff {first : Except ε α} {next : α → Except ε β} {value : β} :
    first >>= next = .ok value ↔ ∃ mid, first = .ok mid ∧ next mid = .ok value := by
  cases first with
  | error error =>
    constructor
    · intro h
      cases h
    · rintro ⟨mid, h, -⟩
      cases h
  | ok mid =>
    constructor
    · intro h
      exact ⟨mid, rfl, h⟩
    · rintro ⟨_, ⟨⟩, h⟩
      exact h

/-- A sequence of steps fails at the first step that does. -/
theorem bind_eq_error_iff {first : Except ε α} {next : α → Except ε β} {error : ε} :
    first >>= next = .error error ↔
      first = .error error ∨ ∃ mid, first = .ok mid ∧ next mid = .error error := by
  cases first with
  | error other =>
    constructor
    · intro h
      cases h
      exact Or.inl rfl
    · rintro (⟨⟨⟩⟩ | ⟨mid, ⟨⟩, -⟩)
      rfl
  | ok mid =>
    constructor
    · intro h
      exact Or.inr ⟨mid, rfl, h⟩
    · rintro (⟨⟨⟩⟩ | ⟨_, ⟨⟩, h⟩)
      exact h

theorem map_eq_ok_iff {result : Except ε α} {f : α → β} {value : β} :
    result.map f = .ok value ↔ ∃ found, result = .ok found ∧ f found = value := by
  cases result with
  | error error => simp [Except.map]
  | ok found => simp [Except.map]

/-! ## Lists of results -/

variable {f : α → Except ε β} {list : List α} {found : List β}

/-- A list succeeds where each of its elements does. -/
theorem mapM_eq_ok_iff : list.mapM f = .ok found ↔ List.Forall₂ (fun a b => f a = .ok b) list found := by
  induction list generalizing found with
  | nil =>
    rw [List.forall₂_nil_left_iff, List.mapM_nil]
    exact ⟨fun h => (Except.ok.inj h).symm, fun h => congrArg _ h.symm⟩
  | cons a list ih =>
    rw [List.mapM_cons, bind_eq_ok_iff]
    simp only [bind_eq_ok_iff, ih]
    constructor
    · rintro ⟨b, hfirst, others, hrest, ⟨⟩⟩
      exact .cons hfirst hrest
    · rintro (_ | ⟨hfirst, hrest⟩)
      exact ⟨_, hfirst, _, hrest, rfl⟩

/-- A list fails with the failure of one of its elements. -/
theorem exists_error_of_mapM {error : ε} (h : list.mapM f = .error error) : ∃ a ∈ list, f a = .error error := by
  induction list with
  | nil => cases h
  | cons a list ih =>
    rw [List.mapM_cons, bind_eq_error_iff] at h
    rcases h with hfirst | ⟨b, -, hrest⟩
    · exact ⟨a, List.mem_cons_self, hfirst⟩
    rw [bind_eq_error_iff] at hrest
    rcases hrest with hrest | ⟨others, -, ⟨⟩⟩
    obtain ⟨a', ha', herror⟩ := ih hrest
    exact ⟨a', List.mem_cons_of_mem _ ha', herror⟩

theorem exists_mapM (h : ∀ a ∈ list, ∃ b, f a = .ok b) : ∃ found, list.mapM f = .ok found := by
  cases hfound : list.mapM f with
  | ok found => exact ⟨found, rfl⟩
  | error error =>
    obtain ⟨a, ha, herror⟩ := exists_error_of_mapM hfound
    obtain ⟨b, hb⟩ := h a ha
    cases herror.symm.trans hb

/-- If a list of things succeeds, each of them has its result, and each result is of one of them. -/
theorem exists_mem_of_mapM (h : list.mapM f = .ok found) :
    (∀ a ∈ list, ∃ b ∈ found, f a = .ok b) ∧ ∀ b ∈ found, ∃ a ∈ list, f a = .ok b := by
  replace h := mapM_eq_ok_iff.mp h
  induction h with
  | nil => exact ⟨nofun, nofun⟩
  | cons hfirst _ ih =>
    obtain ⟨hresults, hsources⟩ := ih
    rw [List.forall_mem_cons, List.forall_mem_cons]
    refine ⟨⟨⟨_, List.mem_cons_self, hfirst⟩, fun a ha => ?_⟩, ⟨_, List.mem_cons_self, hfirst⟩, fun b hb => ?_⟩
    · obtain ⟨b, hb, hf⟩ := hresults a ha
      exact ⟨b, List.mem_cons_of_mem _ hb, hf⟩
    · obtain ⟨a, ha, hf⟩ := hsources b hb
      exact ⟨a, List.mem_cons_of_mem _ ha, hf⟩

/-- Results that are all there are what each of them is. -/
theorem map_of_mapM {g : β → γ} {g' : α → γ} (heach : ∀ a ∈ list, ∀ b, f a = .ok b → g b = g' a)
    (h : list.mapM f = .ok found) : found.map g = list.map g' := by
  replace h := mapM_eq_ok_iff.mp h
  induction h with
  | nil => rfl
  | cons hfirst _ ih =>
    rw [List.forall_mem_cons] at heach
    rw [List.map_cons, List.map_cons, heach.1 _ hfirst, ih heach.2]

/-- What a list of things comes to, seen through a function. -/
theorem map_mapM (f : α → Except ε β) (g : β → γ) (list : List α) :
    (list.mapM f).map (List.map g) = list.mapM fun a => (f a).map g := by
  induction list with
  | nil => rfl
  | cons a list ih =>
    rw [List.mapM_cons, List.mapM_cons, ← ih]
    cases f a with
    | error error => rfl
    | ok b => cases list.mapM f <;> rfl

end Results

end BlockShuffle
