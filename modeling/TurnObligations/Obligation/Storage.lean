import TurnObligations.Fault
import TurnObligations.Obligation.Valid
import TurnObligations.Storage.Datum
import TurnObligations.Storage.Save

/-!
How trees are stored: each node is a variant named for its kind around a record of its fields.
-/

namespace TurnObligations.Obligation

variable {Action : Type} [NamedAction Action]

def known (Action : Type) [NamedAction Action] (name : String) : Bool :=
  (NamedAction.ofName? name : Option Action).isSome

def alternatives (Action : Type) [NamedAction Action] : List (String × Shape) :=
  [("single", .record "Single"
      [("action", .word (known Action)), ("mandatory", .bool), ("completed", .bool)]),
    ("choice", .record "Choice" [("branches", .list .recur)]),
    ("any", .record "Any" [("branches", .list .recur), ("current", .option .index)]),
    ("repeat", .record "Repeat"
      [("atLeast", .count), ("atMost", .count), ("template", .recur),
        ("current", .option .recur), ("count", .count)]),
    ("whenThen", .record "WhenThen"
      [("when", .recur), ("then", .recur), ("atLeast", .count), ("atMost", .count),
        ("whens", .count), ("thens", .count), ("current", .option .recur)])]

mutual

def toDatum : Obligation Action → Datum
  | .single action mandatory completed =>
      .variant 0 "single" (.record
        [("action", .word (NamedAction.name action)), ("mandatory", .bool mandatory),
          ("completed", .bool completed)])
  | .choice branches =>
      .variant 1 "choice" (.record [("branches", .list (toDatumAll branches))])
  | .any branches current =>
      .variant 2 "any" (.record
        [("branches", .list (toDatumAll branches)), ("current", Storable.toDatum current)])
  | .repeated atLeast atMost template current count =>
      .variant 3 "repeat" (.record
        [("atLeast", .count atLeast), ("atMost", .count atMost), ("template", toDatum template),
          ("current", toDatumCurrent current), ("count", .count count)])
  | .whenThen trigger consequence atLeast atMost whens thens current =>
      .variant 4 "whenThen" (.record
        [("when", toDatum trigger), ("then", toDatum consequence), ("atLeast", .count atLeast),
          ("atMost", .count atMost), ("whens", .count whens), ("thens", .count thens),
          ("current", toDatumCurrent current)])

def toDatumCurrent : Option (Obligation Action) → Datum
  | none => .absent
  | some current => .present (toDatum current)

def toDatumAll : List (Obligation Action) → List Datum
  | [] => []
  | branch :: rest => toDatum branch :: toDatumAll rest

end

omit [NamedAction Action] in
theorem toDatumAll_eq [NamedAction Action] (branches : List (Obligation Action)) :
    toDatumAll branches = branches.map toDatum := by
  induction branches with
  | nil => rfl
  | cons branch rest ih => simp [toDatumAll, ih]

mutual

def ofDatum? : Datum → Option (Obligation Action)
  | .variant 0 _ (.record [(_, .word name), (_, .bool mandatory), (_, .bool completed)]) =>
      (NamedAction.ofName? name).map fun action => .single action mandatory completed
  | .variant 1 _ (.record [(_, .list branches)]) => (ofDatumAll? branches).map .choice
  | .variant 2 _ (.record [(_, .list branches), (_, current)]) => do
      return .any (← ofDatumAll? branches) (← Storable.ofDatum? current)
  | .variant 3 _ (.record [(_, .count atLeast), (_, .count atMost), (_, template), (_, current),
      (_, .count count)]) => do
      return .repeated atLeast atMost (← ofDatum? template) (← ofDatumCurrent? current) count
  | .variant 4 _ (.record [(_, trigger), (_, consequence), (_, .count atLeast),
      (_, .count atMost), (_, .count whens), (_, .count thens), (_, current)]) => do
      return .whenThen (← ofDatum? trigger) (← ofDatum? consequence) atLeast atMost whens thens
        (← ofDatumCurrent? current)
  | _ => none

def ofDatumCurrent? : Datum → Option (Option (Obligation Action))
  | .absent => some none
  | .present current => (ofDatum? current).map some
  | _ => none

def ofDatumAll? : List Datum → Option (List (Obligation Action))
  | [] => some []
  | branch :: rest => do return (← ofDatum? branch) :: (← ofDatumAll? rest)

end

instance : Storable (Obligation Action) where
  shape := .recursive (alternatives Action)
  toDatum := toDatum
  ofDatum? := ofDatum?

instance : Saved (Obligation Action) where
  validate := validate

end TurnObligations.Obligation
