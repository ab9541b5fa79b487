import EntitySchema.Engine.Deployment
import EntitySchema.Proofs.Engine.Cache

/-!
What preparing an engine and publishing a revision do to the engines of a deployment. A round of
publishing tells the subscribers in turn and ends at the first engine that reports the revision; each
engine that was told by then has dealt with it by itself.
-/

namespace EntitySchema.Deployment

variable {d next : Deployment} {engines : List (Option Engine)} {subs : List Nat} {i j : Nat}
  {e : Engine} {s : Schema}

/-- The engine at a place that is taken. -/
def engineAt (engines : List (Option Engine)) (i : Nat) : Option Engine := (engines[i]?).join

theorem engineAt_eq_some : engineAt engines i = some e ↔ engines[i]? = some (some e) :=
  Option.join_eq_some_iff

theorem lt_length_of_engineAt (there : engineAt engines i = some e) : i < engines.length :=
  (List.getElem?_eq_some_iff.mp (engineAt_eq_some.mp there)).1

theorem engineAt_set {x : Option Engine} (inside : i < engines.length) :
    engineAt (engines.set i x) j = if j = i then x else engineAt engines j := by
  unfold engineAt
  by_cases same : j = i
  · rw [same, if_pos rfl, List.getElem?_set_self inside]
    rfl
  · rw [if_neg same, List.getElem?_set_ne (Ne.symm same)]

theorem engineAt_concat {x : Option Engine} :
    engineAt (engines ++ [x]) j = if j = engines.length then x else engineAt engines j := by
  unfold engineAt
  rw [List.getElem?_append]
  split_ifs with inside last last
  · exact absurd inside last.not_lt
  · rfl
  · rw [last, Nat.sub_self]
    rfl
  · rw [List.getElem?_eq_none (not_lt.mp inside), List.getElem?_eq_none]
    rw [List.length_singleton]
    omega

theorem engine?_set {x : Option Engine} (there : d.engine? i = some e) :
    engine? { d with engines := d.engines.set i x } j = if j = i then x else d.engine? j :=
  engineAt_set (lt_length_of_engineAt there)

theorem set_engineAt (there : engineAt engines i = some e) : engines.set i (some e) = engines := by
  obtain ⟨inside, same⟩ := List.getElem?_eq_some_iff.mp (engineAt_eq_some.mp there)
  rw [← same]
  exact List.set_getElem_self inside

/-! Preparing. -/

/-- The deployment after an engine has filled its cache. An engine that is told already is not put
among the subscribers again. -/
def installed (d : Deployment) (i : Nat) (e : Engine) (built : KeyMap Toolbox) : Deployment where
  store := d.store
  engines := d.engines.set i (some (e.installed built))
  subscribers := if e.subscribed then d.subscribers else d.subscribers ++ [i]

theorem prepareFrom_eq_ok {source : List String → Except ProviderError (List Schema)}
    {names : List String} : d.prepareFrom i source names = .ok next ↔
      (d.engine? i = none ∧ next = d) ∨
      ∃ e, d.engine? i = some e ∧
        ((e.isPrepared = true ∧ next = d) ∨
          ∃ built, e.Fills (source names) names built ∧ next = d.installed i e built) := by
  unfold prepareFrom
  cases there : d.engine? i with
  | none =>
    simp only [Except.ok.injEq, reduceCtorEq, false_and, exists_false, or_false, true_and]
    exact eq_comm
  | some e =>
    simp only [Outcome.map_eq_ok, Engine.prepare_eq_ok]
    have unchanged : { d with
        engines := d.engines.set i (some e)
        subscribers :=
          if e.subscribed && !e.subscribed then d.subscribers ++ [i] else d.subscribers } = d := by
      rw [set_engineAt there, Bool.and_not_self]
      rfl
    have filled (built : KeyMap Toolbox) : { d with
        engines := d.engines.set i (some (e.installed built))
        subscribers := if (e.installed built).subscribed && !e.subscribed then d.subscribers ++ [i]
          else d.subscribers } = d.installed i e built := by
      rw [installed]
      cases e.subscribed <;> rfl
    constructor
    · rintro ⟨_, ⟨prepared, rfl⟩ | ⟨built, fills, rfl⟩, rfl⟩
      · exact .inr ⟨_, rfl, .inl ⟨prepared, unchanged⟩⟩
      · exact .inr ⟨_, rfl, .inr ⟨built, fills, filled built⟩⟩
    · rintro (⟨absent, _⟩ | ⟨_, same, ⟨prepared, rfl⟩ | ⟨built, fills, rfl⟩⟩)
      · cases absent
      · cases same
        exact ⟨e, .inl ⟨prepared, rfl⟩, unchanged⟩
      · cases same
        exact ⟨_, .inr ⟨built, fills, rfl⟩, filled built⟩

/-! Publishing. -/

theorem tell_of_none (absent : engineAt engines i = none) :
    tell s (i :: subs) engines = tell s subs engines := by
  unfold engineAt at absent
  rw [tell, absent]

theorem tell_of_ok {after : Engine} (there : engineAt engines i = some e)
    (dealt : e.refresh s = .ok after) :
    tell s (i :: subs) engines = tell s subs (engines.set i (some after)) := by
  unfold engineAt at there
  rw [tell, there]
  dsimp only
  rw [dealt]

theorem tell_of_error {reason : Validation.Misconfigured} (there : engineAt engines i = some e)
    (failed : e.refresh s = .error reason) : tell s (i :: subs) engines = (engines, some reason) := by
  unfold engineAt at there
  rw [tell, there]
  dsimp only
  rw [failed]

/-- A round of publishing: `told` have dealt with the revision, and `rest` have not been reached, unless
the first of them reported it. -/
structure Round (s : Schema) (engines : List (Option Engine)) (told rest : List Nat)
    (outcome : List (Option Engine) × Option Validation.Misconfigured) : Prop where
  length : outcome.1.length = engines.length
  engine : ∀ i, engineAt outcome.1 i =
    if i ∈ told then (engineAt engines i).map (·.refreshed s) else engineAt engines i
  dealt : ∀ i ∈ told, ∀ e, engineAt engines i = some e → ¬ ∃ reason, e.refresh s = .error reason
  ended : (outcome.2 = none ∧ rest = []) ∨
    ∃ i behind e reason, rest = i :: behind ∧ engineAt engines i = some e ∧
      e.refresh s = .error reason ∧ outcome.2 = some reason

section

variable {told rest : List Nat} {outcome : List (Option Engine) × Option Validation.Misconfigured}

theorem Round.cons_of_none (absent : engineAt engines i = none)
    (round : Round s engines told rest outcome) : Round s engines (i :: told) rest outcome where
  length := round.length
  engine j := by
    rw [round.engine]
    by_cases same : j = i
    · rw [same, absent]
      split_ifs <;> rfl
    · simp only [List.mem_cons, same, false_or]
  dealt j member e here := by
    rcases List.mem_cons.mp member with rfl | behind
    · rw [absent] at here
      cases here
    · exact round.dealt j behind e here
  ended := round.ended

/-- The rest of a round sees the other engines as they were before it. -/
theorem Round.cons_of_ok {after : Engine} (there : engineAt engines i = some e)
    (dealt : e.refresh s = .ok after) (own : i ∉ told ++ rest)
    (round : Round s (engines.set i (some after)) told rest outcome) :
    Round s engines (i :: told) rest outcome := by
  have inside := lt_length_of_engineAt there
  have apart {j : Nat} (behind : j ∈ told ++ rest) :
      engineAt (engines.set i (some after)) j = engineAt engines j := by
    rw [engineAt_set inside, if_neg]
    rintro rfl
    exact own behind
  refine ⟨round.length.trans List.length_set, fun j => ?_, fun j member f here => ?_, ?_⟩
  · rw [round.engine, engineAt_set inside]
    by_cases same : j = i
    · have unseen : i ∉ told := fun member => own (List.mem_append_left _ member)
      rw [same, if_neg unseen, if_pos rfl, if_pos List.mem_cons_self, there, Option.map_some,
        Engine.refreshed_of_refresh dealt]
    · simp only [List.mem_cons, same, false_or, if_false]
  · rcases List.mem_cons.mp member with rfl | behind
    · rw [there] at here
      cases here
      rintro ⟨reason, wrong⟩
      rw [dealt] at wrong
      cases wrong
    · rw [← apart (List.mem_append_left _ behind)] at here
      exact round.dealt j behind f here
  · rcases round.ended with finished | ⟨j, behind, f, reason, rfl, here, failed, report⟩
    · exact .inl finished
    · rw [apart (List.mem_append_right _ List.mem_cons_self)] at here
      exact .inr ⟨j, behind, f, reason, rfl, here, failed, report⟩

/-- Every subscriber is told unless one of them reports the revision. -/
theorem Round.report_eq_none (round : Round s engines told rest outcome) : outcome.2 = none ↔
    ∀ i ∈ told ++ rest, ∀ e, engineAt engines i = some e →
      ¬ ∃ reason, e.refresh s = .error reason := by
  rcases round.ended with ⟨none, rfl⟩ | ⟨i, behind, e, reason, rfl, there, failed, report⟩
  · rw [List.append_nil]
    exact iff_of_true none round.dealt
  · refine iff_of_false (by rw [report]; exact Option.some_ne_none _) fun silent => ?_
    exact silent i (List.mem_append_right _ List.mem_cons_self) e there ⟨reason, failed⟩

theorem Round.rest_eq_nil (round : Round s engines told rest outcome) (silent : outcome.2 = none) :
    rest = [] := by
  rcases round.ended with ⟨_, none⟩ | ⟨_, _, _, _, _, _, _, report⟩
  · exact none
  · rw [silent] at report
    cases report

end

theorem exists_round (s : Schema) (distinct : subs.Nodup) (engines : List (Option Engine)) :
    ∃ told rest, subs = told ++ rest ∧ Round s engines told rest (tell s subs engines) := by
  induction subs generalizing engines with
  | nil => exact ⟨[], [], rfl, rfl, fun i => rfl, nofun, .inl ⟨rfl, rfl⟩⟩
  | cons i later ih =>
    obtain ⟨own, others⟩ := List.nodup_cons.mp distinct
    cases there : engineAt engines i with
    | none =>
      obtain ⟨told, rest, rfl, round⟩ := ih others engines
      refine ⟨i :: told, rest, rfl, ?_⟩
      rw [tell_of_none there]
      exact round.cons_of_none there
    | some e =>
      cases outcome : e.refresh s with
      | error reason =>
        refine ⟨[], i :: later, rfl, ?_⟩
        rw [tell_of_error there outcome]
        exact ⟨rfl, fun j => rfl, nofun, .inr ⟨i, later, e, reason, rfl, there, outcome, rfl⟩⟩
      | ok after =>
        obtain ⟨told, rest, rfl, round⟩ := ih others (engines.set i (some after))
        refine ⟨i :: told, rest, rfl, ?_⟩
        rw [tell_of_ok there outcome]
        exact round.cons_of_ok there outcome own

end EntitySchema.Deployment
