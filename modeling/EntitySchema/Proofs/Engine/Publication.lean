import EntitySchema.Proofs.Engine.Run

/-!
Publishing a revision. Each engine that is told deals with it by itself: its toolbox of the entity is
the new one if it can be built, and the one before if not. A round of publishing comes to its end
unless an engine finds a rule that does not apply to its field.
-/

namespace EntitySchema.Deployment

variable {d : Deployment} {i : Nat} {e : Engine} {s : Schema}

theorem Wired.told_of_cached (wired : d.Wired) (there : d.engine? i = some e) {n : String}
    (cached : n ∈ e.entityNames) : i ∈ d.subscribers :=
  (wired.told i e there).mp
    ((wired.sound i e there).told (Engine.isPrepared_of_mem cached))

/-- A round of publishing is reported exactly if an engine has the entity, and finds a table but also a
rule that does not apply. -/
theorem Wired.answer_publish_eq_ok (wired : d.Wired) (s : Schema) :
    d.answer (.publish s) = .ok () ↔
      ∀ i e, d.engine? i = some e → s.name ∈ e.entityNames →
        s.Derives e.config e.dialect → s.Validates e.config.validation := by
  obtain ⟨told, rest, split, round⟩ := wired.exists_round s
  rw [answer_publish, round.report_eq_none, ← split]
  constructor
  · intro silent i e there cached derives
    by_contra broken
    exact silent i (wired.told_of_cached there cached) e there
      (Engine.exists_refresh_error.mpr ⟨cached, derives, broken⟩)
  · intro valid i _ e there failed
    obtain ⟨cached, derives, broken⟩ := Engine.exists_refresh_error.mp failed
    exact broken (valid i e there cached derives)

/-- An engine has dealt with the revision, or the round was ended before it. -/
theorem Wired.engine?_publish (wired : d.Wired) (s : Schema) (there : d.engine? i = some e) :
    (d.after (.publish s)).engine? i = some (e.refreshed s) ∨
      (d.after (.publish s)).engine? i = some e ∧
        (d.answer (.publish s) = .ok () → i ∉ d.subscribers) := by
  obtain ⟨told, rest, split, round⟩ := wired.exists_round s
  have outcome : (d.after (.publish s)).engine? i =
      if i ∈ told then (d.engine? i).map (·.refreshed s) else d.engine? i := by
    rw [after_publish]
    exact round.engine i
  rw [outcome, there, answer_publish]
  split_ifs with member
  · exact .inl rfl
  · refine .inr ⟨rfl, fun silent => ?_⟩
    rw [split, round.rest_eq_nil silent, List.append_nil]
    exact member

theorem Wired.engine?_publish_of_ok (wired : d.Wired) (there : d.engine? i = some e)
    (ok : d.answer (.publish s) = .ok ()) :
    (d.after (.publish s)).engine? i = some (e.refreshed s) := by
  rcases wired.engine?_publish s there with same | ⟨same, untold⟩
  · exact same
  · rw [same, Engine.refreshed_of_absent fun cached => untold ok (wired.told_of_cached there cached)]

/-- Notes that lost their number. -/
def keylessNote : Schema := { noteSchema with fields := [] }

/-- Notes with a mail address, whose length has to be in the bounds of the engine. -/
def mailedNote : Schema :=
  { noteSchema with fields :=
      noteSchema.fields ++ [⟨"mail", "mail", "", .email, .empty, false, none, []⟩] }

end EntitySchema.Deployment
