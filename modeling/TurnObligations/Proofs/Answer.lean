import TurnObligations.Fault

/-!
Results of queries and commands. A query answers truly, or lists exactly what it is asked for; a
command happens or is refused, and what breaks a precondition of the program is a fault.
-/

namespace TurnObligations

/-! ### Peeling a computation apart -/

theorem ok_bind {ε α β : Type} (value : α) (next : α → Except ε β) :
    Except.ok value >>= next = next value := rfl

theorem bind_eq_ok {ε α β : Type} {first : Except ε α} {next : α → Except ε β} {result : β} :
    first >>= next = .ok result ↔ ∃ value, first = .ok value ∧ next value = .ok result := by
  cases first with
  | ok value => simp [bind, Except.bind]
  | error error => simp [bind, Except.bind]

theorem bind_unit_eq_ok {ε β : Type} {first : Except ε Unit} {next : Unit → Except ε β}
    {result : β} : first >>= next = .ok result ↔ first = .ok () ∧ next () = .ok result := by
  cases first with
  | ok value => simp [bind, Except.bind]
  | error error => simp [bind, Except.bind]

theorem map_eq_ok {ε α β : Type} {first : Except ε α} {next : α → β} {result : β} :
    first.map next = .ok result ↔ ∃ value, first = .ok value ∧ next value = result := by
  cases first with
  | ok value => simp [Except.map]
  | error error => simp [Except.map]

theorem map_eq_map_cases {ε α β γ : Type} {left : Except ε α} {right : Except ε β} {seen : α → γ}
    {seen' : β → γ} (same : left.map seen = right.map seen') :
    (∃ error, left = .error error ∧ right = .error error) ∨
      ∃ value value', left = .ok value ∧ right = .ok value' ∧ seen value = seen' value' := by
  cases left with
  | error error =>
      cases right with
      | error error' => exact .inl ⟨error, rfl, congrArg Except.error (Except.error.inj same).symm⟩
      | ok value' => cases same
  | ok value =>
      cases right with
      | error error' => cases same
      | ok value' => exact .inr ⟨value, value', rfl, rfl, Except.ok.inj same⟩

theorem lift_ok {Action α : Type} (value : α) :
    (liftM (Except.ok value : Except Fault α) : Except (Stop Action) α) = .ok value := rfl

theorem eq_ok_of_lift {Action α : Type} {result : Except Fault α} {value : α}
    (lifted : (liftM result : Except (Stop Action) α) = .ok value) : result = .ok value := by
  cases result with
  | ok _ => exact congrArg Except.ok (Except.ok.inj lifted)
  | error fault => cases lifted

theorem of_onlyIf_eq_true {condition : Prop} [Decidable condition] {answer : Except Fault Bool}
    (asked : (if condition then answer else .ok false) = .ok true) : condition := by
  by_cases holds : condition
  · exact holds
  · simp [holds] at asked

theorem require_eq_ok_iff {condition : Bool} {unmet : Precondition} :
    require condition unmet = .ok () ↔ condition = true := by
  cases condition <;> simp [require]

theorem fetch_eq_ok_iff {α : Type} {items : List α} {index : Nat} {item : α} :
    fetch items index = .ok item ↔ items[index]? = some item := by
  rw [fetch]
  cases items[index]? <;> simp

/-! ### Queries -/

/-- A question has an answer, which tells whether a property holds. -/
def Answers (answer : Except Fault Bool) (fact : Prop) : Prop :=
  ∃ truth : Bool, answer = .ok truth ∧ (truth = true ↔ fact)

namespace Answers

variable {answer other : Except Fault Bool} {fact fact' : Prop}

theorem decided (truth : Bool) : Answers (.ok truth) (truth = true) := ⟨truth, rfl, Iff.rfl⟩

theorem congr (answered : Answers answer fact) (same : fact ↔ fact') : Answers answer fact' := by
  obtain ⟨truth, given, told⟩ := answered
  exact ⟨truth, given, told.trans same⟩

theorem cases (answered : Answers answer fact) :
    (fact ∧ answer = .ok true) ∨ (¬fact ∧ answer = .ok false) := by
  obtain ⟨truth, rfl, told⟩ := answered
  cases truth <;> simp [← told]

theorem eq_ok_of_iff {truth : Bool} (answered : Answers answer fact) (told : truth = true ↔ fact) :
    answer = .ok truth := by
  obtain ⟨given, rfl, told'⟩ := answered
  exact congrArg Except.ok (Bool.eq_iff_iff.mpr (told'.trans told.symm))

theorem itself (answered : Answers answer fact) : Answers answer (answer = .ok true) := by
  obtain ⟨truth, rfl, _⟩ := answered
  exact ⟨truth, rfl, by simp⟩

theorem orElse (answered : Answers answer fact) (otherwise : Answers other fact') :
    Answers (do if ← answer then .ok true else other) (fact ∨ fact') := by
  rcases answered.cases with ⟨holds, rfl⟩ | ⟨fails, rfl⟩
  · exact ⟨true, rfl, by simp [holds]⟩
  · exact otherwise.congr (by simp [fails])

theorem onlyIf {condition : Prop} [Decidable condition] (answered : Answers answer fact) :
    Answers (if condition then answer else .ok false) (condition ∧ fact) := by
  by_cases holds : condition
  · simpa [holds] using answered
  · simpa [holds] using decided false

end Answers

/-- A question has a list for an answer, which holds exactly the items with a property. -/
def Lists {α : Type} (answer : Except Fault (List α)) (fact : α → Prop) : Prop :=
  ∃ items, answer = .ok items ∧ ∀ item, item ∈ items ↔ fact item

namespace Lists

variable {α : Type} {answer other : Except Fault (List α)} {fact fact' : α → Prop}

theorem nil : Lists (.ok [] : Except Fault (List α)) fun _ => False := ⟨[], rfl, by simp⟩

theorem congr (listed : Lists answer fact) (same : ∀ item, fact item ↔ fact' item) :
    Lists answer fact' := by
  obtain ⟨items, given, told⟩ := listed
  exact ⟨items, given, fun item => (told item).trans (same item)⟩

theorem append (listed : Lists answer fact) (others : Lists other fact') :
    Lists (answer >>= fun items => other >>= fun others => pure (items ++ others))
      fun item => fact item ∨ fact' item := by
  obtain ⟨items, rfl, told⟩ := listed
  obtain ⟨items', rfl, told'⟩ := others
  exact ⟨items ++ items', rfl, by simp [told, told']⟩

theorem onlyIf {condition : Prop} [Decidable condition] (listed : Lists answer fact) :
    Lists (if condition then answer else .ok []) fun item => condition ∧ fact item := by
  by_cases holds : condition
  · simpa [holds] using listed
  · exact ⟨[], if_neg holds, by simp [holds]⟩

end Lists

/-! ### Commands -/

/-- A command happens or is refused; no precondition of the program is broken. -/
def Faultless {Action α : Type} (result : Except (Stop Action) α) : Prop :=
  ∀ fault, result ≠ .error (.faulted fault)

section Commands

variable {Action α : Type} {result : Except (Stop Action) α}

theorem isOk_iff_of_ok {ε : Type} {result : Except ε α} {fact : Prop} {value : α} (holds : fact)
    (happened : result = .ok value) : result.isOk = true ↔ fact := by
  subst happened
  exact iff_of_true rfl holds

theorem isOk_iff_of_error {ε : Type} {result : Except ε α} {fact : Prop} {error : ε}
    (fails : ¬fact) (stopped : result = .error error) : result.isOk = true ↔ fact := by
  subst stopped
  exact iff_of_false (by simp [Except.isOk, Except.toBool]) fails

theorem faultless_of_ok {value : α} (happened : result = .ok value) : Faultless result := by
  simp [Faultless, happened]

theorem faultless_of_refused {refusal : Refusal Action}
    (refused : result = .error (.refused refusal)) : Faultless result := by
  simp [Faultless, refused]

end Commands

end TurnObligations
