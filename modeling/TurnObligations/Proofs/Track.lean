import TurnObligations.Proofs.Answer
import TurnObligations.Counter

/-!
Walks round a track: a walker who stands on it can always be found and can always go on.
-/

namespace TurnObligations.Track

variable {α : Type} {track : List α} {position : Option UInt64} {index : UInt64} {here : α}

theorem holds_here (found : track[index.toNat]? = some here) : holds track (some index) = true := by
  simpa [holds] using (List.getElem?_eq_some_iff.mp found).1

theorem locate_here (found : track[index.toNat]? = some here) :
    locate track (some index) = .ok (some here) := by
  rw [locate, fetch_eq_ok_iff.mpr found]
  rfl

theorem locate_returns (standing : holds track position = true) :
    ∃ place, locate track position = .ok place := by
  cases position with
  | none => exact ⟨none, rfl⟩
  | some index =>
      have within : index.toNat < track.length := by simpa [holds] using standing
      exact ⟨_, locate_here (List.getElem?_eq_getElem within)⟩

theorem following_returns {length : Nat} (occupied : 0 < length) (few : length < UInt64.size)
    (standing : ∀ index ∈ position, index.toNat < length) :
    ∃ index, following length position = .ok index ∧ index.toNat < length := by
  cases position with
  | none => exact ⟨0, rfl, occupied⟩
  | some index =>
      have within := standing index rfl
      have fits : index.toNat + 1 < UInt64.size := by omega
      have advanced : Counter.advance index 1 = .ok (UInt64.ofNat (index.toNat + 1)) := if_pos fits
      have seated : length ≠ 0 := by omega
      have wraps := Nat.mod_lt (index.toNat + 1) occupied
      have next : (UInt64.ofNat (index.toNat + 1)).toNat = index.toNat + 1 :=
        UInt64.toNat_ofNat_of_lt fits
      have place : (UInt64.ofNat ((index.toNat + 1) % length)).toNat = (index.toNat + 1) % length :=
        UInt64.toNat_ofNat_of_lt (by omega)
      refine ⟨UInt64.ofNat ((index.toNat + 1) % length), ?_,
        Nat.lt_of_le_of_lt (Nat.le_of_eq place) wraps⟩
      rw [following, advanced, ok_bind, if_neg seated, next]
      rfl

theorem advance_returns (laid : track ≠ []) (few : track.length < UInt64.size)
    (standing : holds track position = true) :
    ∃ index here, advance track position = .ok (index, here) := by
  have onTrack : ∀ index ∈ position, index.toNat < track.length := by
    rintro index rfl
    simpa [holds] using standing
  obtain ⟨index, follows, within⟩ :=
    following_returns (List.length_pos_iff.mpr laid) few onTrack
  exact ⟨index, track[index.toNat], by rw [advance, follows, ok_bind, fetch_ok _ _ within]; rfl⟩

theorem advance_eq_ok (advanced : advance track position = .ok (index, here)) :
    track[index.toNat]? = some here := by
  obtain ⟨next, _, rest⟩ := bind_eq_ok.mp advanced
  obtain ⟨place, found, result⟩ := bind_eq_ok.mp rest
  cases result
  exact fetch_eq_ok_iff.mp found

end TurnObligations.Track
