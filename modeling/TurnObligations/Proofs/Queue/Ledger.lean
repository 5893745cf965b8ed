import TurnObligations.Proofs.Obligation.Skip

/-!
The history of a queue by identity. Every obligation that comes in gets the next number, and whatever
happens to it is entered under that number, so that no index into the pool or the order is needed.
-/

namespace TurnObligations.Queue

open Obligation (stillOpen stillOpen_final stillOpen_open)

variable {Action : Type}

structure Held (Action : Type) where
  label : Nat
  tree : Obligation Action

inductive Deed (Action : Type) where
  | pushed (trees : List (Obligation Action))
  | pooled (tree : Obligation Action)
  | landed (action : Action) (label : Nat) (next : Obligation Action)
  | skipped (label : Nat) (next : Obligation Action)
  /-- A skip found nothing but the pool. -/
  | lapsed
  | released
  | cleared

structure Ledger (Action : Type) where
  pool : List (Held Action)
  /-- Front first, and so newest first. -/
  order : List (Held Action)
  current : Option Nat
  used : Nat

def labels (held : List (Held Action)) : List Nat := held.map Held.label

/-- The last of the trees comes in first. -/
def labelled (start : Nat) : List (Obligation Action) → List (Held Action)
  | [] => []
  | tree :: rest => ⟨start + rest.length, tree⟩ :: labelled start rest

def revise (label : Nat) (next : Obligation Action) (held : List (Held Action)) :
    List (Held Action) :=
  held.flatMap fun entry =>
    if entry.label = label then (stillOpen next).toList.map (Held.mk label) else [entry]

namespace Ledger

def empty : Ledger Action := ⟨[], [], none, 0⟩

def held (ledger : Ledger Action) : List (Held Action) := ledger.pool ++ ledger.order

def amend (label : Nat) (next : Obligation Action) (ledger : Ledger Action) : Ledger Action :=
  { ledger with
    pool := revise label next ledger.pool
    order := revise label next ledger.order
    current := (stillOpen next).map fun _ => label }

def release (ledger : Ledger Action) : Ledger Action := { ledger with current := none }

def lapse (ledger : Ledger Action) : Ledger Action :=
  if ledger.order.isEmpty then { ledger with pool := [] } else ledger

def record (ledger : Ledger Action) : Deed Action → Ledger Action
  | .pushed trees =>
      let live := trees.filter fun tree => !tree.isFinal
      { ledger with
        order := labelled ledger.used live ++ ledger.order
        used := ledger.used + live.length }
  | .pooled tree =>
      if tree.isFinal then ledger
      else { ledger with pool := ledger.pool ++ [⟨ledger.used, tree⟩], used := ledger.used + 1 }
  | .landed _ label next => ledger.amend label next
  | .skipped label next => (ledger.amend label next).release.lapse
  | .lapsed => ledger.release.lapse
  | .released => ledger.release
  | .cleared => { ledger with pool := [], order := [], current := none }

def recordAll (ledger : Ledger Action) (deeds : List (Deed Action)) : Ledger Action :=
  deeds.foldl record ledger

def of (deeds : List (Deed Action)) : Ledger Action := empty.recordAll deeds

end Ledger

/-! ### Lists of what is held -/

@[simp] theorem labelled_trees (start : Nat) (trees : List (Obligation Action)) :
    (labelled start trees).map Held.tree = trees := by
  induction trees with
  | nil => rfl
  | cons tree rest ih => simp [labelled, ih]

@[simp] theorem length_labelled (start : Nat) (trees : List (Obligation Action)) :
    (labelled start trees).length = trees.length := by
  rw [← List.length_map Held.tree, labelled_trees]

theorem tree_mem_of_mem_labelled {start : Nat} {trees : List (Obligation Action)}
    {entry : Held Action} (member : entry ∈ labelled start trees) : entry.tree ∈ trees := by
  rw [← labelled_trees start trees]
  exact List.mem_map_of_mem member

theorem labelled_bounds {start label : Nat} {trees : List (Obligation Action)}
    (member : label ∈ labels (labelled start trees)) :
    start ≤ label ∧ label < start + trees.length := by
  induction trees with
  | nil => cases member
  | cons tree rest ih =>
      simp only [labels, labelled, List.map_cons, List.mem_cons] at member ih
      simp only [List.length_cons]
      rcases member with rfl | later
      · omega
      · have bounds := ih later
        omega

theorem labelled_descends (start : Nat) (trees : List (Obligation Action)) :
    (labels (labelled start trees)).Pairwise (· > ·) := by
  induction trees with
  | nil => exact .nil
  | cons tree rest ih => exact .cons (fun label later => (labelled_bounds later).2) ih

theorem revise_cons (label : Nat) (next : Obligation Action) (entry : Held Action)
    (rest : List (Held Action)) :
    revise label next (entry :: rest) =
      (if entry.label = label then (stillOpen next).toList.map (Held.mk label) else [entry]) ++
        revise label next rest := List.flatMap_cons

theorem mem_revise {label : Nat} {next : Obligation Action} {held : List (Held Action)}
    {entry : Held Action} :
    entry ∈ revise label next held ↔
      (entry ∈ held ∧ entry.label ≠ label) ∨
        (entry = ⟨label, next⟩ ∧ next.isFinal = false ∧ label ∈ labels held) := by
  simp only [revise, List.mem_flatMap, labels, List.mem_map]
  constructor
  · rintro ⟨old, member, kept⟩
    split at kept
    · next same =>
        simp only [List.mem_map, Option.mem_toList, Obligation.stillOpen_eq_some] at kept
        obtain ⟨_, ⟨unresolved, rfl⟩, rfl⟩ := kept
        exact .inr ⟨rfl, unresolved, old, member, same⟩
    · next other =>
        rw [List.mem_singleton.mp kept]
        exact .inl ⟨member, other⟩
  · rintro (⟨member, other⟩ | ⟨rfl, unresolved, old, member, same⟩)
    · exact ⟨entry, member, by simp [other]⟩
    · exact ⟨old, member, by simp [same, stillOpen_open unresolved]⟩

theorem labels_revise (label : Nat) (next : Obligation Action) (held : List (Held Action)) :
    (labels (revise label next held)).Sublist (labels held) := by
  induction held with
  | nil => exact .slnil
  | cons entry rest ih =>
      rw [revise_cons]
      by_cases same : entry.label = label
      · rw [if_pos same]
        cases final : next.isFinal with
        | true =>
            simp only [stillOpen, final]
            exact ih.cons entry.label
        | false =>
            have kept : labels (entry :: rest) = label :: labels rest := by simp [labels, same]
            simp only [stillOpen, final, kept]
            exact ih.cons_cons label
      · rw [if_neg same]
        exact ih.cons_cons entry.label

theorem revise_of_absent {label : Nat} {held : List (Held Action)} (next : Obligation Action)
    (absent : label ∉ labels held) : revise label next held = held := by
  induction held with
  | nil => rfl
  | cons entry rest ih =>
      simp only [labels, List.map_cons, List.mem_cons, not_or] at absent
      rw [revise_cons, if_neg (Ne.symm absent.1), ih absent.2]
      rfl

theorem revise_split {before after : List (Held Action)} {entry : Held Action}
    (next : Obligation Action) (earlier : entry.label ∉ labels before)
    (later : entry.label ∉ labels after) :
    revise entry.label next (before ++ entry :: after) =
      before ++ ((stillOpen next).toList.map (Held.mk entry.label) ++ after) := by
  have front := revise_of_absent next earlier
  have back := revise_of_absent next later
  rw [revise] at front back
  rw [revise, List.flatMap_append, List.flatMap_cons, if_pos rfl, front, back]

/-! ### Order in the ledger -/

namespace Ledger

/-- Nothing final is held, nothing is held twice, and everything stands in the order it came in. -/
structure Tidy (ledger : Ledger Action) : Prop where
  pool : (labels ledger.pool).Pairwise (· < ·)
  order : (labels ledger.order).Pairwise (· > ·)
  apart : ∀ label ∈ labels ledger.pool, label ∉ labels ledger.order
  known : ∀ label ∈ labels ledger.held, label < ledger.used
  unresolved : ∀ entry ∈ ledger.held, entry.tree.isFinal = false

variable {ledger : Ledger Action}

theorem empty_tidy : (empty : Ledger Action).Tidy :=
  ⟨.nil, .nil, nofun, nofun, nofun⟩

theorem labels_append (first rest : List (Held Action)) :
    labels (first ++ rest) = labels first ++ labels rest := List.map_append

theorem labels_held (ledger : Ledger Action) :
    labels ledger.held = labels ledger.pool ++ labels ledger.order := labels_append ..

theorem Tidy.pooled_lt (tidy : ledger.Tidy) {label : Nat} (member : label ∈ labels ledger.pool) :
    label < ledger.used :=
  tidy.known label (by rw [labels_held]; exact List.mem_append_left _ member)

theorem Tidy.ordered_lt (tidy : ledger.Tidy) {label : Nat} (member : label ∈ labels ledger.order) :
    label < ledger.used :=
  tidy.known label (by rw [labels_held]; exact List.mem_append_right _ member)

theorem amend_held (label : Nat) (next : Obligation Action) (ledger : Ledger Action) :
    (ledger.amend label next).held = revise label next ledger.held := List.flatMap_append.symm

theorem Tidy.amend (tidy : ledger.Tidy) (label : Nat) (next : Obligation Action) :
    (ledger.amend label next).Tidy where
  pool := tidy.pool.sublist (labels_revise label next ledger.pool)
  order := tidy.order.sublist (labels_revise label next ledger.order)
  apart := by
    intro label' pooled ordered
    exact tidy.apart label' ((labels_revise ..).subset pooled) ((labels_revise ..).subset ordered)
  known := by
    intro label' member
    rw [amend_held] at member
    exact tidy.known label' ((labels_revise ..).subset member)
  unresolved := by
    intro entry member
    rw [amend_held] at member
    rcases mem_revise.mp member with ⟨old, _⟩ | ⟨rfl, unresolved, _⟩
    · exact tidy.unresolved entry old
    · exact unresolved

theorem Tidy.release (tidy : ledger.Tidy) : ledger.release.Tidy :=
  ⟨tidy.pool, tidy.order, tidy.apart, tidy.known, tidy.unresolved⟩

theorem Tidy.lapse (tidy : ledger.Tidy) : ledger.lapse.Tidy := by
  rw [Ledger.lapse]
  split
  · refine ⟨.nil, tidy.order, nofun, ?_, ?_⟩
    · exact fun label ordered => tidy.ordered_lt ordered
    · exact fun entry ordered => tidy.unresolved entry (List.mem_append_right _ ordered)
  · exact tidy

theorem Tidy.push (tidy : ledger.Tidy) {trees : List (Obligation Action)}
    (live : ∀ tree ∈ trees, tree.isFinal = false) :
    ({ ledger with
        order := labelled ledger.used trees ++ ledger.order
        used := ledger.used + trees.length } : Ledger Action).Tidy := by
  have order : labels (labelled ledger.used trees ++ ledger.order) =
      labels (labelled ledger.used trees) ++ labels ledger.order := labels_append ..
  refine ⟨tidy.pool, ?_, ?_, ?_, ?_⟩
  · rw [order, List.pairwise_append]
    refine ⟨labelled_descends _ _, tidy.order, fun label new old oldMember => ?_⟩
    have bounds := labelled_bounds new
    have older := tidy.ordered_lt oldMember
    omega
  · intro label pooled ordered
    rw [order, List.mem_append] at ordered
    rcases ordered with new | old
    · have bounds := labelled_bounds new
      have older := tidy.pooled_lt pooled
      omega
    · exact tidy.apart label pooled old
  · intro label member
    rw [labels_held, order, List.mem_append, List.mem_append] at member
    show label < ledger.used + trees.length
    rcases member with pooled | new | old
    · have older := tidy.pooled_lt pooled
      omega
    · exact (labelled_bounds new).2
    · have older := tidy.ordered_lt old
      omega
  · intro entry member
    rcases List.mem_append.mp member with pooled | ordered
    · exact tidy.unresolved entry (List.mem_append_left _ pooled)
    · rcases List.mem_append.mp ordered with new | old
      · exact live entry.tree (tree_mem_of_mem_labelled new)
      · exact tidy.unresolved entry (List.mem_append_right _ old)

theorem Tidy.pooled (tidy : ledger.Tidy) {tree : Obligation Action} (unresolved : tree.isFinal = false) :
    ({ ledger with pool := ledger.pool ++ [⟨ledger.used, tree⟩], used := ledger.used + 1 } :
      Ledger Action).Tidy := by
  have pool : labels (ledger.pool ++ [⟨ledger.used, tree⟩]) = labels ledger.pool ++ [ledger.used] :=
    labels_append ..
  refine ⟨?_, tidy.order, ?_, ?_, ?_⟩
  · rw [pool, List.pairwise_append]
    refine ⟨tidy.pool, List.pairwise_singleton _ _, fun label old new newMember => ?_⟩
    rw [List.mem_singleton.mp newMember]
    exact tidy.pooled_lt old
  · intro label pooled ordered
    rw [pool, List.mem_append, List.mem_singleton] at pooled
    rcases pooled with old | rfl
    · exact tidy.apart label old ordered
    · exact Nat.lt_irrefl _ (tidy.ordered_lt ordered)
  · intro label member
    rw [labels_held, pool, List.mem_append, List.mem_append, List.mem_singleton] at member
    show label < ledger.used + 1
    rcases member with (old | rfl) | ordered
    · exact Nat.lt_succ_of_lt (tidy.pooled_lt old)
    · exact Nat.lt_succ_self _
    · exact Nat.lt_succ_of_lt (tidy.ordered_lt ordered)
  · intro entry member
    simp only [Ledger.held, List.mem_append, List.mem_singleton] at member
    rcases member with (pooled | rfl) | ordered
    · exact tidy.unresolved entry (List.mem_append_left _ pooled)
    · exact unresolved
    · exact tidy.unresolved entry (List.mem_append_right _ ordered)

theorem Tidy.record (tidy : ledger.Tidy) (deed : Deed Action) : (ledger.record deed).Tidy := by
  cases deed with
  | pushed trees => exact tidy.push fun tree member => by simpa using (List.mem_filter.mp member).2
  | pooled tree =>
      rw [Ledger.record]
      split
      · exact tidy
      · next unresolved => exact tidy.pooled (Bool.not_eq_true _ ▸ unresolved)
  | landed action label next => exact tidy.amend label next
  | skipped label next => exact (tidy.amend label next).release.lapse
  | lapsed => exact tidy.release.lapse
  | released => exact tidy.release
  | cleared => exact ⟨.nil, .nil, nofun, nofun, nofun⟩

theorem Tidy.recordAll (tidy : ledger.Tidy) (deeds : List (Deed Action)) :
    (ledger.recordAll deeds).Tidy := by
  induction deeds generalizing ledger with
  | nil => exact tidy
  | cons deed rest ih => exact ih (tidy.record deed)

theorem of_tidy (deeds : List (Deed Action)) : (of deeds).Tidy := empty_tidy.recordAll deeds

end Ledger

end TurnObligations.Queue
