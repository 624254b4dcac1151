import BranchChain.Proofs.Jump
import BranchChain.Proofs.Reading
import BranchChain.Proofs.Results
/-!
# Proofs.Decoding — what a decoder makes of data

Whatever the memory, a decoded branch is a jump in place (`Memory.branchAt_eq_ok_iff`), and only a reply that is too
short makes a decoder break off (`Memory.breaksShort_branchAt`).  Over an image the data decide: they begin with
the bytes of a jump, and that jump is read (`Image.branchAt_ok_iff`), or they begin with no whole branch, and the way they
fall short is the error (`Image.branchAt_error_iff`).
-/
namespace BranchChain

namespace Memory

variable {m : Memory} {a : Address} {opcode raw : ByteArray} {h : Halt DecodeError}

/-! ## The decoder, read by read -/

theorem branchAt_error {h : Halt Fault} (h0 : m.byte a = .error h) : m.branchAt a = .error (h.map .memory) := by
  rw [branchAt, h0]
  rfl

theorem branchAt_other {x : UInt8} (h0 : m.byte a = .ok x) (hs : x ≠ jneShort) (he : x ≠ escape) :
    m.branchAt a = .error (.fail (.unknownOpcode [x])) := by
  rw [branchAt, mapError_eq_ok.2 h0, bind_ok, if_neg hs, if_neg he]
  rfl

theorem branchAt_jneShort (h0 : m.byte a = .ok jneShort) :
    m.branchAt a = (m.fetch a 2 >>= fun raw => byteAt raw 1 >>= fun d => .ok ⟨a, .short, rel8 d⟩) := by
  rw [branchAt, mapError_eq_ok.2 h0, bind_ok, if_pos rfl]
  rfl

theorem branchAt_escape (h0 : m.byte a = .ok escape) (ho : m.read a 2 = .ok opcode) :
    m.branchAt a = (byteAt opcode 1 >>= fun y =>
      if y = jneNear then m.fetch a 6 >>= fun raw => byteAt raw 2 >>= fun b0 => byteAt raw 3 >>= fun b1 =>
        byteAt raw 4 >>= fun b2 => byteAt raw 5 >>= fun b3 => .ok ⟨a, .near, rel32 b0 b1 b2 b3⟩
      else .error (.fail (.unknownOpcode opcode.data.toList))) := by
  rw [branchAt, mapError_eq_ok.2 h0, bind_ok, if_neg (by decide), if_pos rfl, fetch_eq_ok_iff.2 ho, bind_ok]
  rfl

theorem branchAt_short_error (h0 : m.byte a = .ok jneShort) (hr : m.fetch a 2 = .error h) : m.branchAt a = .error h := by
  rw [branchAt_jneShort h0, hr]
  rfl

theorem branchAt_escape_error (h0 : m.byte a = .ok escape) (ho : m.fetch a 2 = .error h) : m.branchAt a = .error h := by
  rw [branchAt, mapError_eq_ok.2 h0, bind_ok, if_neg (by decide), if_pos rfl, ho]
  rfl

theorem branchAt_escape_other {y : UInt8} (h0 : m.byte a = .ok escape) (ho : m.read a 2 = .ok opcode)
    (h1 : opcode.data.toList[1]? = some y) (hn : y ≠ jneNear) :
    m.branchAt a = .error (.fail (.unknownOpcode opcode.data.toList)) := by
  rw [branchAt_escape h0 ho, byteAt_eq_ok_iff.2 h1, bind_ok, if_neg hn]

theorem branchAt_near_error (h0 : m.byte a = .ok escape) (ho : m.read a 2 = .ok opcode)
    (h1 : opcode.data.toList[1]? = some jneNear) (hr : m.fetch a 6 = .error h) : m.branchAt a = .error h := by
  rw [branchAt_escape h0 ho, byteAt_eq_ok_iff.2 h1, bind_ok, if_pos rfl, hr]
  rfl

/-- **What a decoder reads where it finds a jump**: an opcode of either form, and with it the displacement. -/
inductive Shows (m : Memory) (a : Address) : Jump → Prop where
  | short {raw : ByteArray} {d : UInt8} (h0 : m.byte a = .ok jneShort) (hr : m.read a 2 = .ok raw)
    (h1 : raw.data.toList[1]? = some d) : Shows m a (.ofByte d)
  | near {opcode raw : ByteArray} {b0 b1 b2 b3 : UInt8} (h0 : m.byte a = .ok escape) (ho : m.read a 2 = .ok opcode)
    (h1 : opcode.data.toList[1]? = some jneNear) (hr : m.read a 6 = .ok raw) (h2 : raw.data.toList[2]? = some b0)
    (h3 : raw.data.toList[3]? = some b1) (h4 : raw.data.toList[4]? = some b2) (h5 : raw.data.toList[5]? = some b3) :
    Shows m a (.ofBytes b0 b1 b2 b3)

theorem branchAt_of_shows {j : Jump} (h : m.Shows a j) : m.branchAt a = .ok (j.placed a) := by
  cases h with
  | short h0 hr h1 =>
    rw [branchAt_jneShort h0, fetch_eq_ok_iff.2 hr, bind_ok, byteAt_eq_ok_iff.2 h1]
    rfl
  | near h0 ho h1 hr h2 h3 h4 h5 =>
    rw [branchAt_escape h0 ho, byteAt_eq_ok_iff.2 h1, bind_ok, if_pos rfl, fetch_eq_ok_iff.2 hr, bind_ok,
      byteAt_eq_ok_iff.2 h2, bind_ok, byteAt_eq_ok_iff.2 h3, bind_ok, byteAt_eq_ok_iff.2 h4, bind_ok,
      byteAt_eq_ok_iff.2 h5]
    rfl

/-- **A decoded branch stands where it was looked for, and its displacement fits its form.** -/
theorem branchAt_eq_ok_iff {b : Branch} : m.branchAt a = .ok b ↔ ∃ j, m.Shows a j ∧ b = j.placed a := by
  constructor
  · intro h
    unfold branchAt at h
    simp only [bind_eq_ok, mapError_eq_ok] at h
    obtain ⟨x, h0, h⟩ := h
    split at h
    · rename_i hx
      simp only [bind_eq_ok, fetch_eq_ok_iff, byteAt_eq_ok_iff] at h
      obtain ⟨raw, hr, d, h1, h⟩ := h
      cases h
      exact ⟨_, .short (hx ▸ h0) hr h1, rfl⟩
    · split at h
      · rename_i hx
        simp only [bind_eq_ok, fetch_eq_ok_iff, byteAt_eq_ok_iff] at h
        obtain ⟨opcode, ho, y, h1, h⟩ := h
        split at h
        · rename_i hy
          simp only [bind_eq_ok, fetch_eq_ok_iff, byteAt_eq_ok_iff] at h
          obtain ⟨raw, hr, b0, h2, b1, h3, b2, h4, b3, h5, h⟩ := h
          cases h
          exact ⟨_, .near (hx ▸ h0) ho (hy ▸ h1) hr h2 h3 h4 h5, rfl⟩
        · cases h
      · cases h
  · rintro ⟨j, hj, rfl⟩
    exact branchAt_of_shows hj

/-! ## Replies that are too short -/

/-- **A step breaks off only behind a reply** that is shorter than it was to be. -/
def BreaksShort (m : Memory) (a : Address) {α : Type} (x : Except (Halt DecodeError) α) : Prop :=
  ∀ t, x = .error (.trap t) → t = .outside ∧ ∃ n reply, m.read a n = .ok reply ∧ reply.size < n

namespace BreaksShort

variable {α β : Type} {x : Except (Halt DecodeError) α}

theorem ok (b : α) : m.BreaksShort a (.ok b) := fun t h => by cases h

theorem fail (e : DecodeError) : m.BreaksShort a (.error (.fail e) : Except _ α) := fun t h => by cases h

theorem bind {f : α → Except (Halt DecodeError) β} (hx : m.BreaksShort a x)
    (hf : ∀ y, x = .ok y → m.BreaksShort a (f y)) : m.BreaksShort a (x >>= f) := by
  intro t h
  obtain h | ⟨y, hy, h⟩ := bind_eq_error.1 h
  · exact hx t h
  · exact hf y hy t h

theorem byte : m.BreaksShort a ((m.byte a).mapError (Halt.map .memory)) := by
  intro t h
  obtain ⟨h, hh, ht⟩ := mapError_eq_error.1 h
  obtain ⟨f, -, rfl⟩ | ⟨reply, hreply, hsize, rfl⟩ := byte_eq_error_iff.1 hh
  · cases ht
  · cases ht
    exact ⟨rfl, 1, reply, hreply, by omega⟩

theorem fetch (n : Nat) : m.BreaksShort a (m.fetch a n) := by
  intro t h
  obtain ⟨f, -, hf⟩ := fetch_eq_error_iff.1 h
  cases hf

theorem byteAt {n i : Nat} (hr : m.fetch a n = .ok raw) (hi : i < n) : m.BreaksShort a (byteAt raw i) := by
  intro t h
  obtain ⟨hle, ht⟩ := byteAt_eq_error_iff.1 h
  cases ht
  exact ⟨rfl, n, raw, fetch_eq_ok_iff.1 hr, Nat.lt_of_le_of_lt hle hi⟩

end BreaksShort

theorem breaksShort_branchAt (m : Memory) (a : Address) : m.BreaksShort a (m.branchAt a) := by
  unfold branchAt
  refine .bind .byte fun x _ => ?_
  split
  · exact .bind (.fetch 2) fun raw hr => .bind (.byteAt hr (by decide)) fun _ _ => .ok _
  split
  · refine .bind (.fetch 2) fun opcode ho => .bind (.byteAt ho (by decide)) fun y _ => ?_
    split
    · refine .bind (.fetch 6) fun raw hr => .bind (.byteAt hr (by decide)) fun _ _ => ?_
      refine .bind (.byteAt hr (by decide)) fun _ _ => .bind (.byteAt hr (by decide)) fun _ _ => ?_
      exact .bind (.byteAt hr (by decide)) fun _ _ => .ok _
    · exact .fail _
  · exact .fail _

end Memory

/-! ## Data that begin with no branch -/

/-- **Data that end inside a branch**, or in front of it. -/
inductive EndsInside : List UInt8 → Prop where
  | nothing : EndsInside []
  | afterShort : EndsInside [jneShort]
  | afterEscape : EndsInside [escape]
  | afterNear {bytes : List UInt8} (h : bytes.length < 4) : EndsInside (escape :: jneNear :: bytes)

/-- **Data that begin with no whole branch**, and the error of a decoder at an address in front of them. -/
inductive NoBranch (a : Address) : List UInt8 → DecodeError → Prop where
  | opcode {b : UInt8} {rest : List UInt8} (hs : b ≠ jneShort) (he : b ≠ escape) :
    NoBranch a (b :: rest) (.unknownOpcode [b])
  | secondOpcode {b : UInt8} {rest : List UInt8} (hn : b ≠ jneNear) :
    NoBranch a (escape :: b :: rest) (.unknownOpcode [escape, b])
  | ended {data : List UInt8} (h : EndsInside data) : NoBranch a data (.memory (.outOfBounds a))

theorem jump_or_noBranch (a : Address) (data : List UInt8) :
    (∃ j rest, data = Jump.encode j ++ rest) ∨ ∃ e, NoBranch a data e := by
  match data with
  | [] => exact .inr ⟨_, .ended .nothing⟩
  | b :: rest =>
    by_cases hs : b = jneShort
    · subst hs
      match rest with
      | [] => exact .inr ⟨_, .ended .afterShort⟩
      | b :: rest => exact .inl ⟨.ofByte b, rest, by rw [Jump.encode_ofByte]; rfl⟩
    · by_cases he : b = escape
      · subst he
        match rest with
        | [] => exact .inr ⟨_, .ended .afterEscape⟩
        | b :: rest =>
          by_cases hn : b = jneNear
          · subst hn
            match rest with
            | b0 :: b1 :: b2 :: b3 :: rest => exact .inl ⟨.ofBytes b0 b1 b2 b3, rest, by rw [Jump.encode_ofBytes]; rfl⟩
            | [] | [_] | [_, _] | [_, _, _] => exact .inr ⟨_, .ended (.afterNear (by simp))⟩
          · exact .inr ⟨_, .secondOpcode hn⟩
      · exact .inr ⟨_, .opcode hs he⟩

namespace Image

/-! ## The decoder over an image -/

theorem branchAt_of_jump {im : Image} {a : Address} {j : Jump} {rest : List UInt8} (h : im.behind a = j.encode ++ rest) :
    im.memory.branchAt a = .ok (j.placed a) := by
  apply Memory.branchAt_of_shows
  obtain ⟨b, rfl⟩ | ⟨b0, b1, b2, b3, rfl⟩ := j.eq_ofByte_or_ofBytes
  · rw [Jump.encode_ofByte] at h
    obtain ⟨raw, hr, hl⟩ := im.read_prefix a [jneShort, b] (List.cons_ne_nil _ _) h
    exact .short (im.byte_prefix a h) hr (by rw [hl]; rfl)
  · rw [Jump.encode_ofBytes] at h
    obtain ⟨opcode, ho, h1⟩ := im.read_prefix a [escape, jneNear] (List.cons_ne_nil _ _) h
    obtain ⟨raw, hr, hl⟩ := im.read_prefix a [escape, jneNear, b0, b1, b2, b3] (List.cons_ne_nil _ _) h
    refine .near (im.byte_prefix a h) ho (by rw [h1]; rfl) hr ?_ ?_ ?_ ?_ <;> rw [hl] <;> rfl

theorem branchAt_of_noBranch {im : Image} {a : Address} {e : DecodeError} (h : NoBranch a (im.behind a) e) :
    im.memory.branchAt a = .error (.fail e) := by
  generalize hd : im.behind a = data at h
  cases h with
  | opcode hs he => exact Memory.branchAt_other (im.byte_prefix a hd) hs he
  | @secondOpcode b _ hn =>
    obtain ⟨opcode, ho, h1⟩ := im.read_prefix a [escape, b] (List.cons_ne_nil _ _) hd
    rw [Memory.branchAt_escape_other (im.byte_prefix a hd) ho (by rw [h1]; rfl) hn, h1]
  | ended he =>
    cases he with
    | nothing =>
      have hread := im.read_behind_error a 1 (by rw [hd]; decide)
      exact Memory.branchAt_error (Memory.byte_eq_error_iff.2 (.inl ⟨_, hread, rfl⟩))
    | afterShort => exact Memory.branchAt_short_error (im.byte_prefix a hd) (im.fetch_error a 2 (by rw [hd]; decide))
    | afterEscape => exact Memory.branchAt_escape_error (im.byte_prefix a hd) (im.fetch_error a 2 (by rw [hd]; decide))
    | afterNear hb =>
      obtain ⟨opcode, ho, h1⟩ := im.read_prefix a [escape, jneNear] (List.cons_ne_nil _ _) hd
      refine Memory.branchAt_near_error (im.byte_prefix a hd) ho (by rw [h1]; rfl) (im.fetch_error a 6 ?_)
      rw [hd, List.length_cons, List.length_cons]
      omega

theorem branchAt_ok_iff {im : Image} {a : Address} {b : Branch} :
    im.memory.branchAt a = .ok b ↔ ∃ j rest, im.behind a = Jump.encode j ++ rest ∧ b = j.placed a := by
  constructor
  · intro h
    obtain ⟨j, rest, hj⟩ | ⟨e, he⟩ := jump_or_noBranch a (im.behind a)
    · rw [branchAt_of_jump hj] at h
      cases h
      exact ⟨j, rest, hj, rfl⟩
    · rw [branchAt_of_noBranch he] at h
      cases h
  · rintro ⟨j, rest, hj, rfl⟩
    exact branchAt_of_jump hj

theorem branchAt_error_iff {im : Image} {a : Address} {h : Halt DecodeError} :
    im.memory.branchAt a = .error h ↔ ∃ e, NoBranch a (im.behind a) e ∧ h = .fail e := by
  constructor
  · intro h
    obtain ⟨j, rest, hj⟩ | ⟨e, he⟩ := jump_or_noBranch a (im.behind a)
    · rw [branchAt_of_jump hj] at h
      cases h
    · rw [branchAt_of_noBranch he] at h
      cases h
      exact ⟨e, he, rfl⟩
  · rintro ⟨e, he, rfl⟩
    exact branchAt_of_noBranch he

end Image
end BranchChain
