import BranchChain.Proofs.ImageRecovery
import BranchChain.Proofs.Looking
import Mathlib.Data.Nat.Find
/-!
# Proofs.Scanning — a search through data

Over an image a search is told by the data: it ends behind the first place where the pattern stands, and without such a
place at its limit or where the data leave no room for the pattern (`Pattern.scan_image`).  An image is shorter than
half the address space, so that no index into it wraps; the offsets of the cursor may.
-/
namespace BranchChain

/-! ## Room -/

/-- **At how many positions from an address on** `n` bytes can be read. -/
def Image.room (im : Image) (a : Address) (n : Nat) : Nat := im.size + 1 - (im.indexOf a + n)

namespace Image

theorem room_eq_toNat (im : Image) (a : Address) (n : Nat) :
    im.room a n = (im.size + 1 - n - im.indexOf a : Int).toNat := by
  unfold room
  omega

variable {im : Image} {a : Address} {n j : Nat}

theorem indexOf_add_of_le_room (hsize : im.size < 2 ^ 63) (hj : j ≤ im.room a n) :
    im.indexOf (a + UInt64.ofNat j) = im.indexOf a + j := by
  have hlt : im.indexOf a < 2 ^ 64 := UInt64.toNat_lt _
  unfold room at hj
  -- where there is no room no step is made; anywhere else the last step ends one byte behind the data at most
  exact im.indexOf_add a j (by omega)

theorem read_behind_room (hsize : im.size < 2 ^ 63) :
    im.memory.read (a + UInt64.ofNat (im.room a n)) n = .error (.outOfBounds (a + UInt64.ofNat (im.room a n))) := by
  apply im.read_error
  rw [indexOf_add_of_le_room hsize (Nat.le_refl _)]
  unfold room
  omega

end Image

namespace Pattern

variable {p : Pattern} {im : Image} {a : Address} {k : Nat}

theorem missedAt_of_lt_room (hsize : im.size < 2 ^ 63) (hk : k < im.room a p.length)
    (hno : ¬ p.OccursAt im.data (im.indexOf a + k)) : p.MissedAt im.memory (a + UInt64.ofNat k) := by
  rw [missedAt_iff, Image.indexOf_add_of_le_room hsize (Nat.le_of_lt hk)]
  unfold Image.room at hk
  exact ⟨by omega, hno⟩

theorem OccursAt.lt_room (h : p.OccursAt im.data (im.indexOf a + k)) : k < im.room a p.length := by
  have hfit := h.1
  rw [im.length_data] at hfit
  unfold Image.room
  omega

theorem exists_firstAt {data : List UInt8} {start limit : Nat} (h : ∃ k < limit, p.OccursAt data (start + k)) :
    ∃ k < limit, p.FirstAt data start k := by
  obtain ⟨hlt, hocc⟩ := Nat.find_spec h
  exact ⟨Nat.find h, hlt, hocc, fun j hj hno => Nat.find_min h hj ⟨Nat.lt_trans hj hlt, hno⟩⟩

/-! ## Searches -/

/-- **A search for what stands somewhere within the limit** ends behind its first place. -/
theorem seek_image_of_firstAt (hsize : im.size < 2 ^ 63) {c : Cursor} {limit : Nat} (hk : k < limit)
    (h : p.FirstAt im.data (im.indexOf c.position) k) :
    seek im.memory p.array limit c = (.found (c.advance k).offset, c.advance (k + p.length)) ∧
      p.looks im.memory limit c = p.answers c.position (k + 1) := by
  obtain ⟨hlt, missed, found⟩ := (Recipe.meets_image_iff (r := ⟨p, limit, 0⟩) hsize).2 ⟨hk, h⟩
  exact ⟨seek_found_behind hlt missed found, looks_found_behind hlt missed found⟩

/-- **A search for what stands nowhere within the limit** ends at the limit, or where there is no room any more. -/
theorem seek_image_of_not_occursAt (hsize : im.size < 2 ^ 63) {c : Cursor} {limit : Nat}
    (h : ∀ k < limit, ¬ p.OccursAt im.data (im.indexOf c.position + k)) :
    seek im.memory p.array limit c = (.missing, c.advance (min limit (im.room c.position p.length))) ∧
      ∃ rest, p.looks im.memory limit c = p.answers c.position (min limit (im.room c.position p.length)) ++ rest ∧
        (rest = [] ∨ ∃ a, rest = [⟨a, p.length, false⟩]) := by
  have missed : ∀ j < min limit (im.room c.position p.length),
      p.MissedAt im.memory (c.position + UInt64.ofNat j) := fun j hj =>
    missedAt_of_lt_room hsize (Nat.lt_of_lt_of_le hj (Nat.min_le_right ..))
      (h j (Nat.lt_of_lt_of_le hj (Nat.min_le_left ..)))
  rcases Nat.lt_or_ge (im.room c.position p.length) limit with hroom | hlimit
  · have fault := Image.read_behind_room (a := c.position) (n := p.length) hsize
    rw [Nat.min_eq_right (Nat.le_of_lt hroom)] at missed ⊢
    exact ⟨seek_ended_behind hroom missed fault, _, looks_error_behind hroom missed fault, .inr ⟨_, rfl⟩⟩
  · rw [Nat.min_eq_left hlimit] at missed ⊢
    exact ⟨seek_exhausted missed, [], by rw [looks_exhausted missed, List.append_nil], .inl rfl⟩

/-- **Whatever the limit**, a search looks at no more places than the data have, one behind them, and one that cannot
be read. -/
theorem countP_looks_image (p : Pattern) (im : Image) (c : Cursor) (limit : Nat) (hsize : im.size < 2 ^ 63) :
    (p.looks im.memory limit c).countP (·.answered) ≤ im.size + 1 ∧
      (p.looks im.memory limit c).countP (!·.answered) ≤ 1 := by
  have hroom : im.room c.position p.length ≤ im.size + 1 := Nat.sub_le ..
  by_cases h : ∃ k < limit, p.OccursAt im.data (im.indexOf c.position + k)
  · obtain ⟨k, hlt, hfirst⟩ := exists_firstAt h
    have hk := hfirst.1.lt_room
    rw [(seek_image_of_firstAt hsize hlt hfirst).2, countP_answered_answers, countP_refused_answers]
    omega
  · obtain ⟨rest, hlooks, hrest⟩ := (seek_image_of_not_occursAt hsize fun k hk hocc => h ⟨k, hk, hocc⟩).2
    have hmin := Nat.min_le_right limit (im.room c.position p.length)
    rw [hlooks, List.countP_append, List.countP_append, countP_answered_answers, countP_refused_answers]
    rcases hrest with rfl | ⟨a, rfl⟩
    · exact ⟨Nat.le_trans hmin hroom, Nat.zero_le 1⟩
    · exact ⟨Nat.le_trans hmin hroom, Nat.le_refl 1⟩

/-- **A search through data** finds the first place where the pattern stands, if the limit reaches it, and ends behind
it.  Otherwise it ends at the limit, or where there is no room for the pattern.  Whatever the limit, no more positions
are read than the data have, one behind them, and one more that cannot be read. -/
theorem scan_image (p : Pattern) (im : Image) (c : Cursor) (limit : Nat) (hsize : im.size < 2 ^ 63) :
    ((∃ k < limit, p.OccursAt im.data (im.indexOf c.position + k)) →
      ∃ k < limit, p.FirstAt im.data (im.indexOf c.position) k ∧
        p.scan im.memory limit c =
          (.ok (c.offset + UInt64.ofNat k), ⟨c.base, c.offset + UInt64.ofNat (k + p.length)⟩)) ∧
    ((¬ ∃ k < limit, p.OccursAt im.data (im.indexOf c.position + k)) →
      p.scan im.memory limit c =
        (.error (.notFound limit),
          ⟨c.base, c.offset + UInt64.ofNat (min limit (im.size + 1 - p.length - im.indexOf c.position : Int).toNat)⟩)) ∧
    (p.looks im.memory limit c).countP (·.answered) ≤ im.size + 1 ∧
    (p.looks im.memory limit c).countP (!·.answered) ≤ 1 := by
  refine ⟨fun h => ?_, fun h => ?_, countP_looks_image p im c limit hsize⟩
  · obtain ⟨k, hlt, hfirst⟩ := exists_firstAt h
    exact ⟨k, hlt, hfirst, scan_of_found (seek_image_of_firstAt hsize hlt hfirst).1⟩
  · rw [← im.room_eq_toNat]
    exact scan_of_missing (seek_image_of_not_occursAt hsize fun k hk hocc => h ⟨k, hk, hocc⟩).1

/-- Data across the end of the address space, walked at an offset that wraps, without an effective limit: a pattern in
the middle of what looks like it, and a pattern that is not there. -/
theorem scan_image_across_zero :
    (Pattern.mk [0xaa, 0xab] none).scan (Image.mk ⟨#[0xaa, 0xaa, 0xab]⟩ ⟨0xfffffffffffffffe⟩).memory
        0xffffffffffffffff ⟨⟨0⟩, 0xfffffffffffffffe⟩ = (.ok 0xffffffffffffffff, ⟨⟨0⟩, 1⟩) ∧
    (Pattern.mk [0xbb, 0xbb] none).scan (Image.mk ⟨#[0xaa, 0xaa, 0xab]⟩ ⟨0xfffffffffffffffe⟩).memory
        0xffffffffffffffff ⟨⟨0⟩, 0xfffffffffffffffe⟩ = (.error (.notFound 0xffffffffffffffff), ⟨⟨0⟩, 0⟩) := by
  have hfound := (scan_image ⟨[0xaa, 0xab], none⟩ ⟨⟨#[0xaa, 0xaa, 0xab]⟩, ⟨0xfffffffffffffffe⟩⟩
    ⟨⟨0⟩, 0xfffffffffffffffe⟩ 0xffffffffffffffff (by decide)).1
  have hmissing := (scan_image ⟨[0xbb, 0xbb], none⟩ ⟨⟨#[0xaa, 0xaa, 0xab]⟩, ⟨0xfffffffffffffffe⟩⟩
    ⟨⟨0⟩, 0xfffffffffffffffe⟩ 0xffffffffffffffff (by decide)).2.1
  constructor
  · obtain ⟨k, -, ⟨hocc, hfirst⟩, hscan⟩ := hfound ⟨1, by decide, by decide⟩
    have hle : ¬ 1 < k := fun h => hfirst 1 h (by decide)
    obtain rfl | rfl : k = 0 ∨ k = 1 := by omega
    · exact absurd hocc (by decide)
    · exact hscan
  · refine hmissing ?_
    rintro ⟨k, -, hocc⟩
    have hle : 0 + k + 2 ≤ 3 := hocc.1
    obtain rfl | rfl : k = 0 ∨ k = 1 := by omega
    · exact absurd hocc (by decide)
    · exact absurd hocc (by decide)

end Pattern
end BranchChain
