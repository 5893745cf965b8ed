import TurnObligations.Obligation.Storage
import TurnObligations.Proofs.Obligation.Valid
import TurnObligations.Proofs.Storage.Lawful

/-!
Trees survive being stored, whatever stands in their fields.
-/

namespace TurnObligations.Obligation

open Storage (Conforms FieldsConform index_shown option_conforms option_rebuilds)

variable {Action : Type} [NamedAction Action]

theorem known_name (action : Action) : known Action (NamedAction.name action) = true := by
  rw [known, NamedAction.ofName?_name]
  rfl

theorem toDatum_shown (tree : Obligation Action) : tree.toDatum.toJson ≠ .null := by
  cases tree <;> nofun

theorem toDatum_conforms (tree : Obligation Action) :
    Conforms (alternatives Action) .recur tree.toDatum := by
  induction tree using childInduction with
  | node tree ih =>
      have all (branches : List (Obligation Action)) (among : ∀ branch ∈ branches, branch ∈ tree.children) :
          Conforms (alternatives Action) (.list .recur) (.list (toDatumAll branches)) := by
        refine .list ?_
        intro datum member
        rw [toDatumAll_eq] at member
        obtain ⟨branch, listed, rfl⟩ := List.mem_map.mp member
        exact ih branch (among branch listed)
      have part (current : Option (Obligation Action)) (among : ∀ part ∈ current, part ∈ tree.children) :
          Conforms (alternatives Action) (.option .recur) (toDatumCurrent current) := by
        cases current with
        | none => exact .absent
        | some current => exact .present current.toDatum_shown (ih current (among current rfl))
      cases tree with
      | single action mandatory completed =>
          exact .recur rfl (FieldsConform.record
            (.cons (.word (known_name action)) (.cons .bool (.cons .bool .nil))) (by simp))
      | choice branches =>
          exact .recur rfl (FieldsConform.record
            (.cons (all branches fun _ => id) .nil) (by simp))
      | any branches current =>
          have index := option_conforms index_shown (alternatives Action) current
          exact .recur rfl (FieldsConform.record
            (.cons (all branches fun _ => id) (.cons index .nil)) (by simp))
      | repeated atLeast atMost template current count =>
          have copied := ih template (by simp [children])
          have begun := part current fun _ found =>
            List.mem_cons_of_mem _ (Option.mem_toList.mpr found)
          exact .recur rfl (FieldsConform.record
            (.cons .count (.cons .count (.cons copied (.cons begun (.cons .count .nil)))))
            (by simp))
      | whenThen trigger consequence atLeast atMost whens thens current =>
          have first := ih trigger (by simp [children])
          have second := ih consequence (by simp [children])
          have begun := part current fun _ found =>
            List.mem_cons_of_mem _ (List.mem_cons_of_mem _ (Option.mem_toList.mpr found))
          exact .recur rfl (FieldsConform.record
            (.cons first (.cons second (.cons .count (.cons .count (.cons .count (.cons .count
              (.cons begun .nil)))))))
            (by simp))

theorem ofDatumAll?_toDatumAll {branches : List (Obligation Action)}
    (each : ∀ branch ∈ branches, ofDatum? branch.toDatum = some branch) :
    ofDatumAll? (toDatumAll branches) = some branches := by
  induction branches with
  | nil => rfl
  | cons branch rest ih =>
      have tail := ih fun other member => each other (by simp [member])
      simp [toDatumAll, ofDatumAll?, each branch (by simp), tail]

theorem ofDatumCurrent?_toDatumCurrent {current : Option (Obligation Action)}
    (each : ∀ part ∈ current, ofDatum? part.toDatum = some part) :
    ofDatumCurrent? (toDatumCurrent current) = some current := by
  cases current with
  | none => rfl
  | some part => simp [toDatumCurrent, ofDatumCurrent?, each part rfl]

theorem ofDatum?_toDatum (tree : Obligation Action) : ofDatum? tree.toDatum = some tree := by
  induction tree using childInduction with
  | node tree ih =>
      cases tree with
      | single action mandatory completed =>
          simp [toDatum, ofDatum?, NamedAction.ofName?_name]
      | choice branches =>
          have all : ofDatumAll? (toDatumAll branches) = some branches := ofDatumAll?_toDatumAll ih
          simp [toDatum, ofDatum?, all]
      | any branches current =>
          have all : ofDatumAll? (toDatumAll branches) = some branches := ofDatumAll?_toDatumAll ih
          simp [toDatum, ofDatum?, all, option_rebuilds]
      | repeated atLeast atMost template current count =>
          have copied := ih template (by simp [children])
          have begun : ofDatumCurrent? (toDatumCurrent current) = some current :=
            ofDatumCurrent?_toDatumCurrent fun part found =>
              ih part (List.mem_cons_of_mem _ (Option.mem_toList.mpr found))
          simp [toDatum, ofDatum?, copied, begun]
      | whenThen trigger consequence atLeast atMost whens thens current =>
          have first := ih trigger (by simp [children])
          have second := ih consequence (by simp [children])
          have begun : ofDatumCurrent? (toDatumCurrent current) = some current :=
            ofDatumCurrent?_toDatumCurrent fun part found =>
              ih part (List.mem_cons_of_mem _ (List.mem_cons_of_mem _ (Option.mem_toList.mpr found)))
          simp [toDatum, ofDatum?, first, second, begun]

instance : LawfulStorable (Obligation Action) where
  conforms _ tree := tree.toDatum_conforms.recursive_of_recur
  rebuilds := ofDatum?_toDatum

end TurnObligations.Obligation
