import TurnObligations.Proofs.Queue.Ledger

/-!
What deeds the rules of a queue allow, and what follows from them: where moves land, how long an
obligation is in progress, and what becomes of everything that is held.
-/

namespace TurnObligations.Queue

open Obligation (stillOpen)

variable {Action : Type}

/-! ### What a deed may be -/

namespace Deed

def Arrives : Deed Action → Prop
  | .pushed _ | .pooled _ => True
  | _ => False

def IsSkip : Deed Action → Prop
  | .skipped _ _ | .lapsed => True
  | _ => False

def Makes (deed : Deed Action) (label : Nat) (next : Obligation Action) : Prop :=
  deed = .skipped label next ∨ ∃ action, deed = .landed action label next

def Carries (deed : Deed Action) (held : List (Held Action)) (entry : Held Action) : Prop :=
  ∃ old ∈ held, old.label = entry.label ∧
    (old.tree = entry.tree ∨ deed.Makes entry.label entry.tree)

end Deed

section Allowed

variable [DecidableEq Action]

/-- A move or a skip does what it does to a tree held, and to the one in progress if there is one.
Otherwise moves may land in the pool and on the front, and skips on the front. -/
def Ledger.Allows (ledger : Ledger Action) : Deed Action → Prop
  | .landed action label next => ∃ entry ∈ ledger.held, entry.label = label ∧
      entry.tree.perform action = .ok next ∧
        (ledger.current = some label ∨
          ledger.current = none ∧ (entry ∈ ledger.pool ∨ entry ∈ ledger.order.head?))
  | .skipped label next => ∃ entry ∈ ledger.held, entry.label = label ∧
      entry.tree.skip = .ok next ∧
        (ledger.current = some label ∨ ledger.current = none ∧ entry ∈ ledger.order.head?)
  | .lapsed => ledger.current = none ∧ ledger.order = []
  | _ => True

def Ledger.AllowsAll (ledger : Ledger Action) : List (Deed Action) → Prop
  | [] => True
  | deed :: rest => ledger.Allows deed ∧ (ledger.record deed).AllowsAll rest

end Allowed

/-- What one deed may change in the ledger. -/
structure Deed.Effect (deed : Deed Action) (before after : Ledger Action) : Prop where
  lands : ∀ current ∈ before.current, ∀ action label next, deed = .landed action label next →
    label = current
  /-- It is in progress until it becomes final or is skipped, or all is released or cleared. -/
  ends : ∀ label ∈ before.current, after.current = some label ∨
    (∃ action next, deed = .landed action label next ∧ next.isFinal = true) ∨
    (∃ next, deed = .skipped label next) ∨ deed = .released ∨ deed = .cleared
  pool : ∀ entry ∈ after.pool, deed.Carries before.pool entry ∨
    (before.used ≤ entry.label ∧ deed = .pooled entry.tree)
  order : ∀ entry ∈ after.order, deed.Carries before.order entry ∨
    (before.used ≤ entry.label ∧ ∃ trees, deed = .pushed trees ∧ entry.tree ∈ trees)
  /-- Nothing leaves but what becomes final or is cleared, and the pool once the order is empty. -/
  leaves : ∀ label ∈ labels before.held, label ∉ labels after.held →
    (∃ next, deed.Makes label next ∧ next.isFinal = true) ∨ deed = .cleared ∨
    (label ∈ labels before.pool ∧ deed.IsSkip ∧ after.order = [])

theorem carries_of_mem {deed : Deed Action} {held : List (Held Action)} {entry : Held Action}
    (member : entry ∈ held) : deed.Carries held entry :=
  ⟨entry, member, rfl, .inl rfl⟩

theorem carries_of_mem_revise {deed : Deed Action} {label : Nat} {next : Obligation Action}
    {held : List (Held Action)} {entry : Held Action} (makes : deed.Makes label next)
    (member : entry ∈ revise label next held) : deed.Carries held entry := by
  rcases mem_revise.mp member with ⟨old, _⟩ | ⟨rfl, _, known⟩
  · exact carries_of_mem old
  · obtain ⟨old, oldMember, same⟩ := List.mem_map.mp known
    exact ⟨old, oldMember, same, .inr makes⟩

theorem mem_labels_revise {label kept : Nat} (next : Obligation Action) {held : List (Held Action)}
    (member : kept ∈ labels held) :
    kept ∈ labels (revise label next held) ∨ (kept = label ∧ next.isFinal = true) := by
  obtain ⟨entry, entryMember, rfl⟩ := List.mem_map.mp member
  by_cases same : entry.label = label
  · cases final : next.isFinal with
    | true => exact .inr ⟨same, rfl⟩
    | false =>
        have known : label ∈ labels held := same ▸ member
        have made : ⟨label, next⟩ ∈ revise label next held := mem_revise.mpr (.inr ⟨rfl, final, known⟩)
        exact .inl (List.mem_map.mpr ⟨_, made, same.symm⟩)
  · exact .inl (List.mem_map_of_mem (mem_revise.mpr (.inl ⟨entryMember, same⟩)))

namespace Ledger

variable {ledger : Ledger Action} {label : Nat} {next : Obligation Action}

theorem mem_labels_amend {kept : Nat} (member : kept ∈ labels ledger.held) :
    kept ∈ labels (ledger.amend label next).held ∨ (kept = label ∧ next.isFinal = true) := by
  rw [amend_held]
  exact mem_labels_revise next member

theorem lapse_order (ledger : Ledger Action) : ledger.lapse.order = ledger.order := by
  rw [lapse]
  split <;> rfl

theorem lapse_current (ledger : Ledger Action) : ledger.lapse.current = ledger.current := by
  rw [lapse]
  split <;> rfl

theorem lapse_pool_subset (ledger : Ledger Action) : ledger.lapse.pool ⊆ ledger.pool := by
  rw [lapse]
  split
  · exact List.nil_subset _
  · exact List.Subset.refl _

theorem mem_labels_lapse (member : label ∈ labels ledger.held) :
    label ∈ labels ledger.lapse.held ∨ (label ∈ labels ledger.pool ∧ ledger.order = []) := by
  rw [lapse]
  split
  · next idle =>
      have none : ledger.order = [] := List.isEmpty_iff.mp idle
      rw [labels_held, none, List.mem_append] at member
      rcases member with pooled | ordered
      · exact .inr ⟨pooled, none⟩
      · cases ordered
  · exact .inl member

theorem amend_current (final : next.isFinal = true) : (ledger.amend label next).current = none := by
  simp [amend, stillOpen, final]

theorem amend_current_of_open (unresolved : next.isFinal = false) :
    (ledger.amend label next).current = some label := by
  simp [amend, stillOpen, unresolved]

/-! ### What each deed changes -/

theorem pushed_effect (trees : List (Obligation Action)) :
    (Deed.pushed trees).Effect ledger (ledger.record (.pushed trees)) where
  lands := by simp
  ends := fun label current => .inl current
  pool := fun entry member => .inl (carries_of_mem member)
  order := by
    intro entry member
    rcases List.mem_append.mp member with new | old
    · have tree := (List.mem_filter.mp (tree_mem_of_mem_labelled new)).1
      exact .inr ⟨(labelled_bounds (List.mem_map_of_mem new)).1, trees, rfl, tree⟩
    · exact .inl (carries_of_mem old)
  leaves := by
    intro label member gone
    refine absurd ?_ gone
    simp only [record, labels_held, labels_append, List.mem_append] at member ⊢
    exact member.imp_right .inr

theorem pooled_effect (tree : Obligation Action) :
    (Deed.pooled tree).Effect ledger (ledger.record (.pooled tree)) := by
  rw [record]
  split
  · exact ⟨by simp, fun _ current => .inl current, fun _ member => .inl (carries_of_mem member),
      fun _ member => .inl (carries_of_mem member), fun _ member gone => absurd member gone⟩
  · refine ⟨by simp, fun _ current => .inl current, ?_, fun _ member => .inl (carries_of_mem member), ?_⟩
    · intro entry member
      rcases List.mem_append.mp member with old | new
      · exact .inl (carries_of_mem old)
      · rw [List.mem_singleton.mp new]
        exact .inr ⟨Nat.le_refl _, rfl⟩
    · intro label member gone
      refine absurd ?_ gone
      simp only [labels_held, labels_append, List.mem_append] at member ⊢
      exact member.imp_left .inl

theorem landed_effect {action : Action} (focus : ∀ current ∈ ledger.current, label = current) :
    (Deed.landed action label next).Effect ledger (ledger.record (.landed action label next)) where
  lands := by
    intro current progress action' label' next' same
    cases same
    exact focus current progress
  ends := by
    intro current progress
    obtain rfl := focus current progress
    cases final : next.isFinal with
    | true => exact .inr (.inl ⟨action, next, rfl, final⟩)
    | false => exact .inl (amend_current_of_open final)
  pool := fun entry member => .inl (carries_of_mem_revise (.inr ⟨action, rfl⟩) member)
  order := fun entry member => .inl (carries_of_mem_revise (.inr ⟨action, rfl⟩) member)
  leaves := by
    intro kept member gone
    obtain ⟨rfl, final⟩ := (mem_labels_amend member).resolve_left gone
    exact .inl ⟨next, .inr ⟨action, rfl⟩, final⟩

theorem skipped_effect (focus : ∀ current ∈ ledger.current, label = current) :
    (Deed.skipped label next).Effect ledger (ledger.record (.skipped label next)) where
  lands := by simp
  ends := by
    intro current progress
    obtain rfl := focus current progress
    exact .inr (.inr (.inl ⟨next, rfl⟩))
  pool := fun entry member => .inl (carries_of_mem_revise (.inl rfl) (lapse_pool_subset _ member))
  order := by
    intro entry member
    rw [record, lapse_order] at member
    exact .inl (carries_of_mem_revise (.inl rfl) member)
  leaves := by
    intro kept member gone
    have amended : kept ∈ labels (ledger.amend label next).release.held ∨
        (kept = label ∧ next.isFinal = true) := mem_labels_amend member
    rcases amended with amended | ⟨rfl, final⟩
    · obtain ⟨pooled, idle⟩ := (mem_labels_lapse amended).resolve_left gone
      refine .inr (.inr ⟨(labels_revise ..).subset pooled, trivial, ?_⟩)
      rw [record, lapse_order]
      exact idle
    · exact .inl ⟨next, .inl rfl, final⟩

theorem eq_of_focus {otherwise : Prop}
    (focus : ledger.current = some label ∨ ledger.current = none ∧ otherwise) :
    ∀ current ∈ ledger.current, label = current := by
  intro current progress
  rcases focus with here | ⟨none, _⟩
  · exact Option.some.inj (here.symm.trans progress)
  · cases none.symm.trans progress

theorem record_effect [DecidableEq Action] {deed : Deed Action} (allows : ledger.Allows deed) :
    deed.Effect ledger (ledger.record deed) := by
  cases deed with
  | pushed trees => exact pushed_effect trees
  | pooled tree => exact pooled_effect tree
  | landed action label next =>
      obtain ⟨_, _, _, _, focus⟩ := allows
      exact landed_effect (eq_of_focus focus)
  | skipped label next =>
      obtain ⟨_, _, _, _, focus⟩ := allows
      exact skipped_effect (eq_of_focus focus)
  | lapsed =>
      obtain ⟨none, idle⟩ := allows
      have noProgress {label : Nat} (progress : label ∈ ledger.current) : False := by
        cases none.symm.trans progress
      refine ⟨by simp, fun _ progress => (noProgress progress).elim, ?_, ?_, ?_⟩
      · exact fun entry member => .inl (carries_of_mem (lapse_pool_subset ledger.release member))
      · intro entry member
        rw [record, lapse_order] at member
        exact .inl (carries_of_mem member)
      · intro label member gone
        have released : label ∈ labels ledger.release.held := member
        obtain ⟨pooled, _⟩ := (mem_labels_lapse released).resolve_left gone
        refine .inr (.inr ⟨pooled, trivial, ?_⟩)
        rw [record, lapse_order]
        exact idle
  | released =>
      exact ⟨by simp, fun _ _ => .inr (.inr (.inr (.inl rfl))),
        fun _ member => .inl (carries_of_mem member), fun _ member => .inl (carries_of_mem member),
        fun _ member gone => absurd member gone⟩
  | cleared =>
      exact ⟨by simp, fun _ _ => .inr (.inr (.inr (.inr rfl))), by simp [record], by simp [record],
        fun _ _ _ => .inr (.inl rfl)⟩

/-! ### The latest move -/

theorem recordAll_append (ledger : Ledger Action) (first rest : List (Deed Action)) :
    ledger.recordAll (first ++ rest) = (ledger.recordAll first).recordAll rest := List.foldl_append

theorem allowsAll_append [DecidableEq Action] {first rest : List (Deed Action)} :
    ledger.AllowsAll (first ++ rest) ↔
      ledger.AllowsAll first ∧ (ledger.recordAll first).AllowsAll rest := by
  induction first generalizing ledger with
  | nil => simp [AllowsAll, recordAll]
  | cons deed first ih => rw [List.cons_append, AllowsAll, AllowsAll, ih, and_assoc]; rfl

theorem record_current {deed : Deed Action} {label : Nat} :
    (ledger.record deed).current = some label ↔
      (ledger.current = some label ∧ deed.Arrives) ∨
        ∃ action next, deed = .landed action label next ∧ next.isFinal = false := by
  cases deed with
  | pushed trees => simp [record, Deed.Arrives]
  | pooled tree =>
      rw [record]
      split <;> simp [Deed.Arrives]
  | landed action label' next =>
      simp only [record, amend, Option.map_eq_some_iff, Obligation.stillOpen_eq_some, Deed.Arrives,
        and_false, false_or]
      constructor
      · rintro ⟨_, ⟨unresolved, rfl⟩, rfl⟩
        exact ⟨action, next, rfl, unresolved⟩
      · rintro ⟨_, _, same, unresolved⟩
        cases same
        exact ⟨next, ⟨unresolved, rfl⟩, rfl⟩
  | skipped label' next => simp [record, lapse_current, release, Deed.Arrives]
  | lapsed => simp [record, lapse_current, release, Deed.Arrives]
  | released => simp [record, release, Deed.Arrives]
  | cleared => simp [record, Deed.Arrives]

end Ledger

/-- The latest move made `next` of what is held under the label, and since then obligations have come
in at most. -/
def LandedLast (deeds : List (Deed Action)) (label : Nat) (next : Obligation Action) : Prop :=
  ∃ before action after, deeds = before ++ .landed action label next :: after ∧
    ∀ deed ∈ after, deed.Arrives

namespace Ledger

variable {ledger : Ledger Action}

theorem recordAll_current {deeds : List (Deed Action)} {label : Nat} :
    (ledger.recordAll deeds).current = some label ↔
      (ledger.current = some label ∧ ∀ deed ∈ deeds, deed.Arrives) ∨
        ∃ next, LandedLast deeds label next ∧ next.isFinal = false := by
  induction deeds generalizing ledger with
  | nil => simp [recordAll, LandedLast]
  | cons deed rest ih =>
      have later : ledger.recordAll (deed :: rest) = (ledger.record deed).recordAll rest := rfl
      rw [later, ih, record_current]
      constructor
      · rintro (⟨⟨progress, first⟩ | ⟨action, next, rfl, unresolved⟩, arrive⟩ |
          ⟨next, ⟨before, action, after, rfl, arrive⟩, unresolved⟩)
        · exact .inl ⟨progress, List.forall_mem_cons.mpr ⟨first, arrive⟩⟩
        · exact .inr ⟨next, ⟨[], action, rest, rfl, arrive⟩, unresolved⟩
        · exact .inr ⟨next, ⟨deed :: before, action, after, rfl, arrive⟩, unresolved⟩
      · rintro (⟨progress, arrive⟩ | ⟨next, ⟨before, action, after, shape, arrive⟩, unresolved⟩)
        · obtain ⟨first, arrive⟩ := List.forall_mem_cons.mp arrive
          exact .inl ⟨.inl ⟨progress, first⟩, arrive⟩
        · cases before with
          | nil =>
              obtain ⟨rfl, rfl⟩ := List.cons.inj shape
              exact .inl ⟨.inr ⟨action, next, rfl, unresolved⟩, arrive⟩
          | cons first before =>
              obtain ⟨rfl, rfl⟩ := List.cons.inj shape
              exact .inr ⟨next, ⟨before, action, after, rfl, arrive⟩, unresolved⟩

theorem of_current {deeds : List (Deed Action)} {label : Nat} :
    (of deeds).current = some label ↔ ∃ next, LandedLast deeds label next ∧ next.isFinal = false := by
  rw [of, recordAll_current]
  simp [empty]

def Keeps (ledger : Ledger Action) (label : Nat) (next : Obligation Action) : Prop :=
  label < ledger.used ∧ ∀ entry ∈ ledger.held, entry.label = label → entry.tree = next

theorem Keeps.record {label : Nat} {next : Obligation Action} {deed : Deed Action}
    (keeps : ledger.Keeps label next) (arrives : deed.Arrives) :
    (ledger.record deed).Keeps label next := by
  obtain ⟨known, same⟩ := keeps
  cases deed with
  | pushed trees =>
      refine ⟨Nat.lt_add_right _ known, fun entry member named => ?_⟩
      rcases List.mem_append.mp member with pooled | ordered
      · exact same entry (List.mem_append_left _ pooled) named
      · rcases List.mem_append.mp ordered with new | old
        · have bounds := labelled_bounds (List.mem_map_of_mem new)
          omega
        · exact same entry (List.mem_append_right _ old) named
  | pooled tree =>
      rw [Ledger.record]
      split
      · exact ⟨known, same⟩
      · refine ⟨Nat.lt_succ_of_lt known, fun entry member named => ?_⟩
        simp only [held, List.mem_append, List.mem_singleton] at member
        rcases member with (old | rfl) | ordered
        · exact same entry (List.mem_append_left _ old) named
        · exact absurd named (Nat.ne_of_gt known)
        · exact same entry (List.mem_append_right _ ordered) named
  | landed => cases arrives
  | skipped => cases arrives
  | lapsed => cases arrives
  | released => cases arrives
  | cleared => cases arrives

theorem Keeps.recordAll {label : Nat} {next : Obligation Action} {deeds : List (Deed Action)}
    (keeps : ledger.Keeps label next) (arrive : ∀ deed ∈ deeds, deed.Arrives) :
    (ledger.recordAll deeds).Keeps label next := by
  induction deeds generalizing ledger with
  | nil => exact keeps
  | cons deed rest ih =>
      obtain ⟨first, later⟩ := List.forall_mem_cons.mp arrive
      exact ih (keeps.record first) later

theorem amend_keeps {label : Nat} (next : Obligation Action) (known : label < ledger.used) :
    (ledger.amend label next).Keeps label next := by
  refine ⟨known, fun entry member named => ?_⟩
  rw [amend_held] at member
  rcases mem_revise.mp member with ⟨_, other⟩ | ⟨rfl, _⟩
  · exact absurd named other
  · rfl

theorem tree_of_landedLast [DecidableEq Action] {deeds : List (Deed Action)} {label : Nat}
    {next : Obligation Action} (tidy : ledger.Tidy) (allowed : ledger.AllowsAll deeds)
    (landed : LandedLast deeds label next) :
    ∀ entry ∈ (ledger.recordAll deeds).held, entry.label = label → entry.tree = next := by
  obtain ⟨before, action, after, rfl, arrive⟩ := landed
  obtain ⟨entry, member, named, _⟩ := (allowsAll_append.mp allowed).2.1
  have known : label < (ledger.recordAll before).used :=
    (tidy.recordAll before).known label (named ▸ List.mem_map_of_mem member)
  rw [recordAll_append]
  exact ((amend_keeps next known).recordAll arrive).2

theorem allows_of_allowsAll [DecidableEq Action] {deeds before after : List (Deed Action)}
    {deed : Deed Action} (allowed : ledger.AllowsAll deeds)
    (shape : deeds = before ++ deed :: after) : (ledger.recordAll before).Allows deed := by
  subst shape
  exact (allowsAll_append.mp allowed).2.1

end Ledger

end TurnObligations.Queue
