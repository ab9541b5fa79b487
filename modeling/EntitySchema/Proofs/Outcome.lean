import Mathlib.Data.List.Forall2
import Mathlib.Data.List.Nodup

/-!
What it takes for a computation that may fail to succeed: every one of its steps has to.
-/

namespace EntitySchema.Outcome

variable {ε α β : Type}

theorem bind_eq_ok {x : Except ε α} {next : α → Except ε β} {b : β} :
    (x >>= next) = .ok b ↔ ∃ a, x = .ok a ∧ next a = .ok b := by
  cases x with
  | error e =>
    constructor
    · intro wrong
      cases wrong
    · intro given
      obtain ⟨a, wrong, _⟩ := given
      cases wrong
  | ok a =>
    constructor
    · intro done
      exact ⟨a, rfl, done⟩
    · intro given
      obtain ⟨other, same, done⟩ := given
      cases same
      exact done

theorem bind_eq_error {x : Except ε α} {next : α → Except ε β} {e : ε} :
    (x >>= next) = .error e ↔ x = .error e ∨ ∃ a, x = .ok a ∧ next a = .error e := by
  cases x with
  | error e' =>
    constructor
    · intro failed
      cases failed
      exact .inl rfl
    · intro given
      rcases given with failed | ⟨a, wrong, _⟩
      · cases failed
        rfl
      · cases wrong
  | ok a =>
    constructor
    · intro failed
      exact .inr ⟨a, rfl, failed⟩
    · intro given
      rcases given with wrong | ⟨other, same, failed⟩
      · cases wrong
      · cases same
        exact failed

theorem map_eq_ok {x : Except ε α} {g : α → β} {b : β} :
    x.map g = .ok b ↔ ∃ a, x = .ok a ∧ g a = b := by
  cases x with
  | error e => simp [Except.map]
  | ok a => simp [Except.map]

/-- A computation fails if it does not succeed. -/
theorem map_eq_error {x : Except ε α} {g : α → β} {e : ε} : x.map g = .error e ↔ x = .error e := by
  cases x with
  | error e' => simp [Except.map]
  | ok a => simp [Except.map]

theorem exists_error_iff {x : Except ε α} : (∃ e, x = .error e) ↔ ¬ ∃ a, x = .ok a := by
  cases x with
  | error e => simp
  | ok a => simp

theorem exists_map_iff {x : Except ε α} {g : α → β} : (∃ b, x.map g = .ok b) ↔ ∃ a, x = .ok a := by
  cases x with
  | error e => simp [Except.map]
  | ok a => simp [Except.map]

theorem mapError_eq_ok {ε' : Type} {x : Except ε α} {g : ε → ε'} {a : α} :
    x.mapError g = .ok a ↔ x = .ok a := by
  cases x with
  | error e => simp [Except.mapError]
  | ok a => simp [Except.mapError]

theorem mapError_eq_error {ε' : Type} {x : Except ε α} {g : ε → ε'} {e : ε'} :
    x.mapError g = .error e ↔ ∃ cause, x = .error cause ∧ g cause = e := by
  cases x with
  | error e => simp [Except.mapError]
  | ok a => simp [Except.mapError]

theorem mapM_eq_ok {f : α → Except ε β} {xs : List α} {ys : List β} :
    xs.mapM f = .ok ys ↔ List.Forall₂ (fun x y => f x = .ok y) xs ys := by
  induction xs generalizing ys with
  | nil =>
    rw [List.mapM_nil, List.forall₂_nil_left_iff]
    exact ⟨fun done => by cases done; rfl, fun none => by rw [none]; rfl⟩
  | cons x rest ih =>
    simp only [List.mapM_cons, bind_eq_ok, List.forall₂_cons_left_iff, ih]
    constructor
    · intro given
      obtain ⟨y, first, others, tail, done⟩ := given
      cases done
      exact ⟨y, others, first, tail, rfl⟩
    · intro given
      obtain ⟨y, others, first, tail, rfl⟩ := given
      exact ⟨y, first, others, tail, rfl⟩

theorem exists_of_mem_results {R : α → β → Prop} {xs : List α} {ys : List β}
    (all : List.Forall₂ R xs ys) {y : β} (member : y ∈ ys) : ∃ x ∈ xs, R x y := by
  induction all with
  | nil => cases member
  | @cons x first xs ys done others ih =>
    rcases List.mem_cons.mp member with rfl | later
    · exact ⟨x, .head _, done⟩
    · obtain ⟨source, inside, found⟩ := ih later
      exact ⟨source, .tail _ inside, found⟩

theorem exists_of_mem_sources {R : α → β → Prop} {xs : List α} {ys : List β}
    (all : List.Forall₂ R xs ys) {x : α} (member : x ∈ xs) : ∃ y ∈ ys, R x y :=
  exists_of_mem_results (R := fun y x => R x y) all.flip member

theorem exists_results {R : α → β → Prop} {xs : List α} (each : ∀ x ∈ xs, ∃ y, R x y) :
    ∃ ys, List.Forall₂ R xs ys := by
  induction xs with
  | nil => exact ⟨[], .nil⟩
  | cons x rest ih =>
    obtain ⟨y, first⟩ := each x (.head _)
    obtain ⟨ys, others⟩ := ih fun other member => each other (.tail _ member)
    exact ⟨y :: ys, .cons first others⟩

/-- What fails as a whole fails at one element. -/
theorem exists_of_mapM_eq_error {f : α → Except ε β} {xs : List α} {e : ε}
    (failed : xs.mapM f = .error e) : ∃ x ∈ xs, f x = .error e := by
  induction xs with
  | nil => cases failed
  | cons x rest ih =>
    rw [List.mapM_cons] at failed
    rcases bind_eq_error.mp failed with here | ⟨y, _, later⟩
    · exact ⟨x, .head _, here⟩
    · rcases bind_eq_error.mp later with there | ⟨ys, _, wrong⟩
      · obtain ⟨other, member, found⟩ := ih there
        exact ⟨other, .tail _ member, found⟩
      · cases wrong

/-- All results are there and have a property if each of them is there and has it. -/
theorem exists_mapM_iff {f : α → Except ε β} {P : β → Prop} {xs : List α} :
    (∃ ys, xs.mapM f = .ok ys ∧ ∀ y ∈ ys, P y) ↔ ∀ x ∈ xs, ∃ y, f x = .ok y ∧ P y := by
  constructor
  · intro given x member
    obtain ⟨ys, done, all⟩ := given
    obtain ⟨y, inside, step⟩ := exists_of_mem_sources (mapM_eq_ok.mp done) member
    exact ⟨y, step, all y inside⟩
  · intro each
    obtain ⟨ys, all⟩ := exists_results each
    refine ⟨ys, mapM_eq_ok.mpr (all.imp fun x y given => given.1), ?_⟩
    intro y member
    obtain ⟨x, _, given⟩ := exists_of_mem_results all member
    exact given.2

theorem forall_results {P : α → Prop} {Q : β → Prop} {xs : List α} {ys : List β}
    (all : List.Forall₂ (fun x y => P x ↔ Q y) xs ys) : (∀ x ∈ xs, P x) ↔ ∀ y ∈ ys, Q y := by
  induction all with
  | nil => simp
  | cons first others ih => rw [List.forall_mem_cons, List.forall_mem_cons, first, ih]

theorem results_filterMap {R : α → β → Prop} {f : α → Option β} {xs : List α}
    (each : ∀ x ∈ xs, ∃ y, f x = some y ∧ R x y) : List.Forall₂ R xs (xs.filterMap f) := by
  induction xs with
  | nil => exact .nil
  | cons x rest ih =>
    obtain ⟨y, found, first⟩ := each x (.head _)
    rw [List.filterMap_cons_some found]
    exact .cons first (ih fun other member => each other (.tail _ member))

theorem results_trans {γ : Type} {R : α → β → Prop} {S : β → γ → Prop} {xs : List α} {ys : List β}
    {zs : List γ} (first : List.Forall₂ R xs ys) (second : List.Forall₂ S ys zs) :
    List.Forall₂ (fun x z => ∃ y, R x y ∧ S y z) xs zs := by
  induction first generalizing zs with
  | nil =>
    cases second
    exact .nil
  | @cons x y xs ys done others ih =>
    cases second with
    | cons next rest => exact .cons ⟨y, done, next⟩ (ih rest)

theorem results_unique {f : α → Except ε β} {xs : List α} {ys zs : List β}
    (first : List.Forall₂ (fun x y => f x = .ok y) xs ys)
    (second : List.Forall₂ (fun x z => f x = .ok z) xs zs) : ys = zs :=
  Except.ok.inj ((mapM_eq_ok.mpr first).symm.trans (mapM_eq_ok.mpr second))

theorem eq_map_of_results {f : α → β} {xs : List α} {ys : List β}
    (all : List.Forall₂ (fun x y => y = f x) xs ys) : ys = xs.map f := by
  induction all with
  | nil => rfl
  | cons first others ih => rw [List.map_cons, first, ih]

/-! Two computations that come out alike. -/

/-- Both fail with the same error, or both succeed with results that are related. -/
inductive Agree (R : α → β → Prop) : Except ε α → Except ε β → Prop
  | error (e : ε) : Agree R (.error e) (.error e)
  | ok {a : α} {b : β} (related : R a b) : Agree R (.ok a) (.ok b)

namespace Agree

variable {γ δ : Type} {R : α → β → Prop} {S : γ → δ → Prop} {x : Except ε α} {y : Except ε β}

theorem bind {f : α → Except ε γ} {g : β → Except ε δ} (first : Agree R x y)
    (next : ∀ a b, R a b → Agree S (f a) (g b)) : Agree S (x >>= f) (y >>= g) := by
  cases first with
  | error e => exact .error e
  | ok related => exact next _ _ related

theorem map {f : α → γ} {g : β → δ} (first : Agree R x y) (next : ∀ a b, R a b → S (f a) (g b)) :
    Agree S (x.map f) (y.map g) := by
  cases first with
  | error e => exact .error e
  | ok related => exact .ok (next _ _ related)

/-- One of the computations may go on with what cannot fail. -/
theorem bind_ok {T : γ → β → Prop} {f : α → γ} (first : Agree R x y)
    (next : ∀ a b, R a b → T (f a) b) : Agree T (x >>= fun a => .ok (f a)) y := by
  cases first with
  | error e => exact .error e
  | ok related => exact .ok (next _ _ related)

theorem mapM {xs : List γ} {f : γ → Except ε α} {g : γ → Except ε β}
    (each : ∀ z ∈ xs, Agree R (f z) (g z)) : Agree (List.Forall₂ R) (xs.mapM f) (xs.mapM g) := by
  induction xs with
  | nil => exact .ok .nil
  | cons z rest ih =>
    rw [List.mapM_cons, List.mapM_cons]
    refine (each z (.head _)).bind fun a b first => ?_
    refine (ih fun z member => each z (.tail _ member)).bind fun as bs others => ?_
    exact .ok (.cons first others)

theorem trans {T : β → γ → Prop} {z : Except ε γ} (first : Agree R x y) (second : Agree T y z) :
    Agree (fun a c => ∃ b, R a b ∧ T b c) x z := by
  cases first with
  | error e =>
    cases second
    exact .error e
  | ok related =>
    cases second with
    | ok further => exact .ok ⟨_, related, further⟩

theorem symm (agree : Agree R x y) : Agree (fun b a => R a b) y x := by
  cases agree with
  | error e => exact .error e
  | ok related => exact .ok related

theorem imp {T : α → β → Prop} (weaker : ∀ a b, R a b → T a b) (agree : Agree R x y) : Agree T x y := by
  cases agree with
  | error e => exact .error e
  | ok related => exact .ok (weaker _ _ related)

/-- The results are those of the computations. -/
theorem known (agree : Agree R x y) : Agree (fun a b => R a b ∧ x = .ok a ∧ y = .ok b) x y := by
  cases agree with
  | error e => exact .error e
  | ok related => exact .ok ⟨related, rfl, rfl⟩

theorem refl (x : Except ε α) : Agree (fun a b => a = b ∧ x = .ok a) x x := by
  cases x with
  | error e => exact .error e
  | ok a => exact .ok ⟨rfl, rfl⟩

end Agree

/-! What is found under a key stands at the same place in a list of results. -/

section Lookup

variable {entries : List (String × α)} {key : String} {a : α}

theorem mem_of_lookup (found : entries.lookup key = some a) : (key, a) ∈ entries := by
  obtain ⟨before, behind, rfl, _⟩ := List.lookup_eq_some_iff.mp found
  exact List.mem_append_right _ (.head _)

theorem lookup_results {R : String × α → β → Prop} {ys : List β} (all : List.Forall₂ R entries ys)
    (found : entries.lookup key = some a) :
    ∃ y, ((entries.map Prod.fst).zip ys).lookup key = some y ∧ R (key, a) y := by
  induction all with
  | nil => cases found
  | @cons e y rest others first _ ih =>
    obtain ⟨k, b⟩ := e
    rw [List.lookup_cons] at found
    rw [List.map_cons, List.zip_cons_cons, List.lookup_cons]
    by_cases same : key = k
    · subst same
      rw [beq_self_eq_true, Option.some.injEq] at found
      subst found
      exact ⟨y, by rw [beq_self_eq_true], first⟩
    · rw [beq_false_of_ne same] at found ⊢
      exact ih found

end Lookup

/-- What stands in a list of different names is found by its own. -/
theorem find?_of_mem {name : α → String} {xs : List α} (distinct : (xs.map name).Nodup) {x : α}
    (member : x ∈ xs) : xs.find? (name · == name x) = some x := by
  cases found : xs.find? (name · == name x) with
  | none =>
    have wrong := List.find?_eq_none.mp found x member
    exact absurd (beq_self_eq_true (name x)) wrong
  | some other =>
    have same : name other = name x := by simpa using List.find?_some found
    rw [List.inj_on_of_nodup_map distinct (List.mem_of_find?_eq_some found) member same]

end EntitySchema.Outcome
