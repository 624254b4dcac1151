import BranchChain.Proofs.Looking
/-!
# Proofs.Resuming — a search cut in two

A search that finds nothing leaves the cursor where a further search goes on.  The two are one search with both limits
together (`Pattern.scan_resumes`): the further search begins with the first position that was not looked at, unless
this position ended the first search, and then it ends the further one too.
-/
namespace BranchChain
namespace Pattern

/-- **A search in two parts**: where the first finds nothing, the second goes on. -/
def scanInParts (p : Pattern) (m : Memory) (d₁ d₂ : Nat) (c : Cursor) : Except SearchError UInt64 × Cursor :=
  match p.scan m d₁ c with
  | (.error (.notFound _), c') => p.scan m d₂ c'
  | x => x

def looksInParts (p : Pattern) (m : Memory) (d₁ d₂ : Nat) (c : Cursor) : List Look :=
  p.looks m d₁ c ++
    if (seek m p.array d₁ c).1 = .missing then p.looks m d₂ (seek m p.array d₁ c).2 else []

variable {p : Pattern} {m : Memory} {c : Cursor}

/-! ## Ended searches -/

/-- **A search that has come to an end stays there**, whatever its limit. -/
theorem seek_stopped {x : Address} (h : m.read c.position p.length = .error (.outOfBounds x)) :
    ∀ n, seek m p.array n c = (.missing, c)
  | 0 => rfl
  | n + 1 => seek_ended h n

/-- A search that finds nothing went as far as its limit, or came to an end. -/
theorem seek_missing_cases (p : Pattern) (m : Memory) : ∀ (n : Nat) (c : Cursor), (seek m p.array n c).1 = .missing →
    (seek m p.array n c).2 = c.advance n ∨
      ∃ x, m.read (seek m p.array n c).2.position p.length = .error (.outOfBounds x)
  | 0, c, _ => .inl c.advance_zero.symm
  | n + 1, c, h => by
    rcases p.found_or_missed_or_ended_or_faulted m c.position with hf | hm | ⟨x, hx⟩ | ⟨f, hf, hother⟩
    · rw [seek_found hf] at h
      cases h
    · rw [seek_missed hm] at h ⊢
      rw [Nat.add_comm n, ← c.advance_advance]
      exact seek_missing_cases p m n (c.advance 1) h
    · rw [seek_ended hx]
      exact .inr ⟨x, hx⟩
    · rw [seek_faulted hf hother] at h
      cases h

/-! ## The seam -/

/-- **A search with two limits together** is the search with the first, and behind it, where it finds nothing, the
search with the second. -/
theorem seek_add (p : Pattern) (m : Memory) (d₂ : Nat) : ∀ (d₁ : Nat) (c : Cursor),
    seek m p.array (d₁ + d₂) c =
      if (seek m p.array d₁ c).1 = .missing then seek m p.array d₂ (seek m p.array d₁ c).2 else seek m p.array d₁ c
  | 0, c => by
    rw [Nat.zero_add]
    rfl
  | n + 1, c => by
    rw [Nat.add_right_comm]
    rcases p.found_or_missed_or_ended_or_faulted m c.position with hf | hm | ⟨x, hx⟩ | ⟨f, hf, hother⟩
    · rw [seek_found hf, seek_found hf]
      rfl
    · rw [seek_missed hm, seek_missed hm]
      exact seek_add p m d₂ n (c.advance 1)
    · -- all three searches end here: the one with both limits, the first, and the second behind it
      rw [seek_stopped hx, seek_stopped hx, if_pos rfl, seek_stopped hx]
    · rw [seek_faulted hf hother, seek_faulted hf hother]
      rfl

theorem looksInParts_missed (h : p.MissedAt m c.position) (d₁ d₂ : Nat) :
    p.looksInParts m (d₁ + 1) d₂ c = ⟨c.position, p.length, true⟩ :: p.looksInParts m d₁ d₂ (c.advance 1) := by
  rw [looksInParts, seek_missed h, looks_missed h]
  rfl

/-- **The parts look at what the whole looks at**, but where the first comes to an end the second looks there again. -/
theorem looksInParts_cases (p : Pattern) (m : Memory) (d₂ : Nat) : ∀ (d₁ : Nat) (c : Cursor),
    p.looksInParts m d₁ d₂ c = p.looks m (d₁ + d₂) c ∨
      ∃ look, (p.looks m (d₁ + d₂) c).getLast? = some look ∧ look.answered = false ∧
        p.looksInParts m d₁ d₂ c = p.looks m (d₁ + d₂) c ++ [look]
  | 0, c => by
    rw [Nat.zero_add]
    exact .inl rfl
  | n + 1, c => by
    rw [Nat.add_right_comm]
    rcases p.found_or_missed_or_ended_or_faulted m c.position with hf | hm | ⟨x, hx⟩ | ⟨f, hf, hother⟩
    · rw [looksInParts, seek_found hf, looks_found hf, looks_found hf]
      exact .inl rfl
    · rw [looksInParts_missed hm, looks_missed hm]
      obtain heq | ⟨look, hlast, hno, heq⟩ := looksInParts_cases p m d₂ n (c.advance 1)
      · exact .inl (congrArg _ heq)
      · refine .inr ⟨look, ?_, hno, congrArg _ heq⟩
        rw [List.getLast?_cons, hlast]
        rfl
    · rw [looksInParts, looks_error hx, looks_error hx, seek_stopped hx, if_pos rfl]
      cases d₂ with
      | zero => exact .inl rfl
      | succ k => exact .inr ⟨_, rfl, rfl, congrArg _ (looks_error hx k)⟩
    · rw [looksInParts, looks_error hf, looks_error hf, seek_faulted hf hother]
      exact .inl rfl

/-! ## Searches in parts -/

theorem scan_of_seek_eq {n n' : Nat} {c c' : Cursor} (h : seek m p.array n c = seek m p.array n' c') :
    (p.scan m n c).2 = (p.scan m n' c').2 ∧
      ((p.scan m n c).1 = (p.scan m n' c').1 ∨
        (p.scan m n c).1 = .error (.notFound n) ∧ (p.scan m n' c').1 = .error (.notFound n')) := by
  rw [scan, scan, h]
  obtain ⟨x, c''⟩ := seek m p.array n' c'
  cases x with
  | found offset => exact ⟨rfl, .inl rfl⟩
  | missing => exact ⟨rfl, .inr ⟨rfl, rfl⟩⟩
  | faulted f => exact ⟨rfl, .inl rfl⟩

theorem scan_notFound_iff {limit : Nat} {c' : Cursor} :
    p.scan m limit c = (.error (.notFound limit), c') ↔ seek m p.array limit c = (.missing, c') := by
  refine ⟨fun h => ?_, scan_of_missing⟩
  unfold scan at h
  split at h <;> cases h
  assumption

theorem scan_ne_notFound_iff {limit : Nat} :
    (p.scan m limit c).1 ≠ .error (.notFound limit) ↔ (seek m p.array limit c).1 ≠ .missing := by
  unfold scan
  split <;> simp [*]

/-- **A higher limit changes neither a match nor a fault.** -/
theorem scan_add_of_ne {d₁ : Nat} (d₂ : Nat) (h : (p.scan m d₁ c).1 ≠ .error (.notFound d₁)) :
    p.scan m (d₁ + d₂) c = p.scan m d₁ c := by
  have hseek := p.seek_add m d₂ d₁ c
  rw [if_neg (scan_ne_notFound_iff.1 h)] at hseek
  obtain ⟨hcursor, hresult | ⟨-, hno⟩⟩ := scan_of_seek_eq hseek
  · exact Prod.ext hresult hcursor
  · exact absurd hno h

theorem scanInParts_of_notFound {d₁ : Nat} (d₂ : Nat) {c' : Cursor}
    (h : p.scan m d₁ c = (.error (.notFound d₁), c')) : p.scanInParts m d₁ d₂ c = p.scan m d₂ c' := by
  rw [scanInParts, h]

theorem scanInParts_of_ne {d₁ : Nat} (d₂ : Nat) (h : (p.scan m d₁ c).1 ≠ .error (.notFound d₁)) :
    p.scanInParts m d₁ d₂ c = p.scan m d₁ c := by
  rw [scan_ne_notFound_iff] at h
  unfold scanInParts scan
  generalize seek m p.array d₁ c = r at h
  obtain ⟨x, c'⟩ := r
  cases x with
  | found offset => rfl
  | missing => exact absurd rfl h
  | faulted f => rfl

theorem scan_stopped {d₁ : Nat} (d₂ : Nat) {c' : Cursor} {x : Address}
    (h : p.scan m d₁ c = (.error (.notFound d₁), c')) (hend : m.read c'.position p.length = .error (.outOfBounds x)) :
    p.scan m d₂ c' = (.error (.notFound d₂), c') ∧
      p.scan m (d₁ + d₂) c = (.error (.notFound (d₁ + d₂)), c') := by
  have hseek := p.seek_add m d₂ d₁ c
  rw [scan_notFound_iff.1 h, if_pos rfl, seek_stopped hend] at hseek
  exact ⟨scan_of_missing (seek_stopped hend d₂), scan_of_missing hseek⟩

theorem scan_notFound_cases {d₁ : Nat} {c' : Cursor} (h : p.scan m d₁ c = (.error (.notFound d₁), c')) :
    c' = c.advance d₁ ∨ ∃ x, m.read c'.position p.length = .error (.outOfBounds x) := by
  have hcases := p.seek_missing_cases m d₁ c
  rw [scan_notFound_iff.1 h] at hcases
  exact hcases rfl

/-- **The parts end as the whole ends**, with the same match or fault: only a limit tells them apart. -/
theorem scanInParts_cases (p : Pattern) (m : Memory) (d₁ d₂ : Nat) (c : Cursor) :
    (p.scanInParts m d₁ d₂ c).2 = (p.scan m (d₁ + d₂) c).2 ∧
      ((p.scanInParts m d₁ d₂ c).1 = (p.scan m (d₁ + d₂) c).1 ∨
        (p.scanInParts m d₁ d₂ c).1 = .error (.notFound d₂) ∧
          (p.scan m (d₁ + d₂) c).1 = .error (.notFound (d₁ + d₂))) := by
  by_cases h : (p.scan m d₁ c).1 = .error (.notFound d₁)
  · have hscan : p.scan m d₁ c = (.error (.notFound d₁), (p.scan m d₁ c).2) := Prod.ext h rfl
    have hseek := p.seek_add m d₂ d₁ c
    rw [scan_notFound_iff.1 hscan, if_pos rfl] at hseek
    rw [scanInParts_of_notFound d₂ hscan]
    exact scan_of_seek_eq hseek.symm
  · rw [scanInParts_of_ne d₂ h, scan_add_of_ne d₂ h]
    exact ⟨rfl, .inl rfl⟩

/-- **A search in two parts is the search with both limits together**: it ends at the same place with the same match or
fault, and only a limit that is reported tells them apart.  The parts look at the positions the whole looks at, one
after the other and no more of them than both limits, but a position that ended the first search is tried by the second
again.  What a search finds, or fails with, stays under a higher limit, and where it came to an end it stays. -/
theorem scan_resumes (p : Pattern) (m : Memory) (d₁ d₂ : Nat) (c : Cursor) :
    (p.scanInParts m d₁ d₂ c).2 = (p.scan m (d₁ + d₂) c).2 ∧
    ((p.scanInParts m d₁ d₂ c).1 = (p.scan m (d₁ + d₂) c).1 ∨
      (p.scanInParts m d₁ d₂ c).1 = .error (.notFound d₂) ∧
        (p.scan m (d₁ + d₂) c).1 = .error (.notFound (d₁ + d₂))) ∧
    (p.looksInParts m d₁ d₂ c = p.looks m (d₁ + d₂) c ∨
      ∃ look, (p.looks m (d₁ + d₂) c).getLast? = some look ∧ look.answered = false ∧
        p.looksInParts m d₁ d₂ c = p.looks m (d₁ + d₂) c ++ [look]) ∧
    (p.looks m (d₁ + d₂) c).length ≤ d₁ + d₂ ∧
    (p.looks m (d₁ + d₂) c).map (·.address) =
      (List.range (p.looks m (d₁ + d₂) c).length).map (fun j => c.position + UInt64.ofNat j) ∧
    ((p.scan m d₁ c).1 ≠ .error (.notFound d₁) → p.scan m (d₁ + d₂) c = p.scan m d₁ c) ∧
    ∀ c', p.scan m d₁ c = (.error (.notFound d₁), c') →
      (c' = c.advance d₁ ∨ ∃ x, m.read c'.position p.length = .error (.outOfBounds x)) ∧
      ∀ x, m.read c'.position p.length = .error (.outOfBounds x) →
        p.scan m d₂ c' = (.error (.notFound d₂), c') ∧
          p.scan m (d₁ + d₂) c = (.error (.notFound (d₁ + d₂)), c') := by
  obtain ⟨hcursor, hresult⟩ := scanInParts_cases p m d₁ d₂ c
  exact ⟨hcursor, hresult, p.looksInParts_cases m d₂ d₁ c, p.length_looks_le m _ c, p.map_address_looks m _ c,
    scan_add_of_ne d₂, fun c' h => ⟨scan_notFound_cases h, fun x => scan_stopped d₂ h⟩⟩

/-- Two bytes: a match that stays under a higher limit, and a search that comes to an end and stays there. -/
theorem scan_resumes_two_bytes :
    (Pattern.mk [0xcc] none).scan (Image.mk ⟨#[0x90, 0xcc]⟩ ⟨0x1000⟩).memory 7 ⟨⟨0x1000⟩, 0⟩ =
      (.ok 1, ⟨⟨0x1000⟩, 2⟩) ∧
    (Pattern.mk [0xbb] none).scan (Image.mk ⟨#[0x90, 0xcc]⟩ ⟨0x1000⟩).memory 5 ⟨⟨0x1000⟩, 2⟩ =
      (.error (.notFound 5), ⟨⟨0x1000⟩, 2⟩) ∧
    (Pattern.mk [0xbb] none).scan (Image.mk ⟨#[0x90, 0xcc]⟩ ⟨0x1000⟩).memory 8 ⟨⟨0x1000⟩, 0⟩ =
      (.error (.notFound 8), ⟨⟨0x1000⟩, 2⟩) := by
  obtain ⟨-, -, -, -, -, hkept, -⟩ :=
    scan_resumes ⟨[0xcc], none⟩ (Image.mk ⟨#[0x90, 0xcc]⟩ ⟨0x1000⟩).memory 2 5 ⟨⟨0x1000⟩, 0⟩
  obtain ⟨-, -, -, -, -, -, hstopped⟩ :=
    scan_resumes ⟨[0xbb], none⟩ (Image.mk ⟨#[0x90, 0xcc]⟩ ⟨0x1000⟩).memory 3 5 ⟨⟨0x1000⟩, 0⟩
  refine ⟨hkept fun h => ?_, (hstopped ⟨⟨0x1000⟩, 2⟩ rfl).2 ⟨0x1002⟩ rfl⟩
  cases h

end Pattern
end BranchChain
