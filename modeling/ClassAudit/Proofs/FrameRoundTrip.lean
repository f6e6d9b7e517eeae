import ClassAudit.ClassFile.StackMap
import ClassAudit.Proofs.Ordering
import ClassAudit.Proofs.Reading
import Mathlib.Data.Finset.Card

/-!
# Stack maps read back

A stack map gives each position as its distance from the one before, less one, and writes a distance
in the first byte of the frame if it is below 64 and in two more bytes if it is not. Written and
read again, the positions are those that went in, in ascending order and once each, however they
were listed. Only their number is limited, to what the count in front of the frames can tell.

## Main statements

* `StackMap.yields_delta` - a distance is read back from the frame that is written for it.
* `StackMap.yields_frames` - so are the positions of the frames, one after the other.
* `StackMap.positions_encode` - **the positions of a table are those that it was written for**.
-/

namespace ClassAudit.StackMap

/-! ### The positions that are written -/

theorem mem_normal {pcs : List Nat} {pc : Nat} : pc ∈ normal pcs ↔ pc ∈ pcs := by
  rw [normal, mem_eraseReps, List.mem_mergeSort]

theorem pairwise_normal (pcs : List Nat) : (normal pcs).Pairwise (· < ·) :=
  pairwise_eraseReps (List.pairwise_mergeSort' (· ≤ ·) pcs)

theorem toFinset_normal (pcs : List Nat) : (normal pcs).toFinset = pcs.toFinset :=
  Finset.ext fun pc => by rw [List.mem_toFinset, List.mem_toFinset, mem_normal]

/-- As many positions are written as there are different ones. -/
theorem length_normal (pcs : List Nat) : (normal pcs).length = pcs.toFinset.card := by
  rw [← toFinset_normal, List.toFinset_card_of_nodup (pairwise_normal pcs).nodup]

/-! ### Frames -/

/-- A distance is read back from the frame that is written for it, be it short or long. -/
theorem yields_delta {d : Nat} (hd : d < 65536) (pos : Nat) :
    delta.Yields pos (encodeDelta d) (.ok d) := by
  refine Read.yields_bind_position ?_
  rw [encodeDelta]
  split
  · rename_i hshort
    have htype := Read.yields_u1 d "frame_type" pos
    rw [Binary.wrap_of_lt (show d < 2 ^ 8 by omega)] at htype
    refine htype.bind_last ?_
    rw [if_pos hshort]
    exact Read.yields_pure d _
  · have htype : (Read.u1 "frame_type").Yields pos [251] (.ok 251) := Read.yields_u1 251 _ pos
    refine htype.bind_cons ?_
    exact (Read.yields_u2_of_lt hd "offset_delta" _).bind_last (Read.yields_pure d _)

/-- Ascending positions, none of which lies before `next`, are read back. -/
theorem yields_frames {pcs : List Nat} {next : Nat} (hsorted : pcs.Pairwise (· < ·))
    (hnext : ∀ pc ∈ pcs, next ≤ pc) (hsmall : ∀ pc ∈ pcs, pc < 65536) (pos : Nat) :
    (frames pcs.length next).Yields pos (encodeFrom next pcs) (.ok pcs) := by
  induction pcs generalizing next pos with
  | nil => exact Read.yields_pure [] pos
  | cons pc pcs ih =>
      obtain ⟨hfirst, hrest⟩ := List.pairwise_cons.mp hsorted
      have hle := hnext pc List.mem_cons_self
      have hlt := hsmall pc List.mem_cons_self
      rw [List.length_cons, encodeFrom, frames]
      refine (yields_delta (d := pc - next) (by omega) pos).bind_ok ?_
      rw [Nat.add_sub_cancel' hle]
      exact (ih hrest hfirst (fun pc h => hsmall pc (List.mem_cons_of_mem _ h)) _).bind_last
        (Read.yields_pure _ _)

/-- The positions of a table are read back, and nothing behind the table is touched. -/
theorem yields_table {pcs : List Nat} (hsmall : ∀ pc ∈ pcs, pc < 65536)
    (hfew : pcs.toFinset.card ≤ 65535) (pos : Nat) :
    table.Yields pos (encode pcs) (.ok (normal pcs)) := by
  have hcount : (normal pcs).length < 65536 := by
    rw [length_normal]
    exact Nat.lt_succ_of_le hfew
  have hframes := yields_frames (pairwise_normal pcs) (fun _ _ => Nat.zero_le _)
    fun pc h => hsmall pc (mem_normal.mp h)
  exact (Read.yields_u2_of_lt hcount "number_of_entries" pos).bind_ok (hframes _)

/-- **The positions of a table are those that it was written for.** Listed in any order and however
often, at most 65535 different positions are read back in ascending order, and the reader stops right
behind the table. -/
theorem positions_encode (pcs : List Nat) (hsmall : ∀ pc ∈ pcs, pc ≤ 65535)
    (hfew : pcs.toFinset.card ≤ 65535) :
    ∃ found, positions (encode pcs) = .ok found ∧
      (∀ pos, table.Yields pos (encode pcs) (.ok found)) ∧
      found.Pairwise (· < ·) ∧ found.toFinset = pcs.toFinset := by
  have htable := yields_table (fun pc h => Nat.lt_succ_of_le (hsmall pc h)) hfew
  exact ⟨normal pcs, (htable 0).runOn, htable, pairwise_normal pcs, toFinset_normal pcs⟩

/-- Distances on both sides of the limit between short and long frames, out of order and with a
repetition. -/
theorem positions_encode_mixed :
    (∀ pc ∈ [65535, 128, 0, 64, 128], pc ≤ 65535) ∧
      [65535, 128, 0, 64, 128].toFinset.card ≤ 65535 ∧
      ∃ found, positions (encode [65535, 128, 0, 64, 128]) = .ok found ∧
        (∀ pos, table.Yields pos (encode [65535, 128, 0, 64, 128]) (.ok found)) ∧
        found.Pairwise (· < ·) ∧ found.toFinset = [65535, 128, 0, 64, 128].toFinset :=
  ⟨by decide, by decide, positions_encode _ (by decide) (by decide)⟩

end ClassAudit.StackMap
