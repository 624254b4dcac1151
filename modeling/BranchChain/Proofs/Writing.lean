import BranchChain.Command.Files
import BranchChain.Proofs.Results
/-!
# Proofs.Writing — a file written into a tree

A write that is made gives the tree one file at the place its name leads to (`Files.write_eq_ok`).  It takes no directory
away and makes none, so every name leads where it led before (`Files.place_of_directories`): the name written to leads to
the new bytes (`Files.view_write`), and every other name to what stood there (`Files.view_write_of_ne`).
-/
namespace BranchChain
namespace Command
namespace Files

variable {fs fs' : Files} {name : String} {path directory : List String} {bytes : ByteArray}

/-! ## Names and what stands under them -/

/-- **The path a name leads to**, whether or not anything stands there. -/
def place (fs : Files) (name : String) : Except FileError (List String) := do
  let (directory, last) ← fs.locate name
  match last with
  | some last => enter directory last
  | none => .ok directory

theorem view_eq (fs : Files) (name : String) :
    fs.view name = fs.place name >>= fun path =>
      match fs.at? path with
      | none => .error .missing
      | some (.file bytes) => if name.endsWith "/" then .error .notDirectory else .ok (.file bytes)
      | some .directory => .ok .directory := by
  unfold view place
  cases fs.locate name with
  | error e => rfl
  | ok reached =>
    obtain ⟨directory, last⟩ := reached
    cases last <;> rfl

theorem view_eq_ok_iff {n : Node} :
    fs.view name = .ok n ↔
      ∃ path, fs.place name = .ok path ∧ fs.at? path = some n ∧ (name.endsWith "/" = true → n = .directory) := by
  rw [view_eq, bind_eq_ok]
  refine exists_congr fun path => and_congr_right fun _ => ?_
  cases hn : fs.at? path with
  | none => exact ⟨fun h => (by cases h), fun h => (by cases h.1)⟩
  | some m =>
    cases m with
    | directory =>
      dsimp only
      rw [Except.ok.injEq, Option.some.injEq]
      exact ⟨fun h => ⟨h, fun _ => h.symm⟩, fun h => h.1⟩
    | file bytes =>
      dsimp only
      split
      · rename_i hend
        rw [Option.some.injEq]
        exact ⟨fun h => (by cases h), fun h => absurd (h.1.trans (h.2 hend)) (by simp)⟩
      · rename_i hend
        rw [Except.ok.injEq, Option.some.injEq]
        exact ⟨fun h => ⟨h, fun hend' => absurd hend' hend⟩, fun h => h.1⟩

/-! ## Directories -/

/-- A path that leads nowhere inside the tree: the working directory and what holds it, and the root. -/
def isTop (path : List String) : Bool := path.all (· == "..") || path == ["/"]

theorem isTop_of_leading {p q : List String} (hpq : p <+: q) (hq : isTop q = true) : isTop p = true := by
  unfold isTop at hq ⊢
  rw [Bool.or_eq_true, beq_iff_eq] at hq
  rw [Bool.or_eq_true, beq_iff_eq]
  obtain hall | rfl := hq
  · exact .inl (List.all_eq_true.2 fun x hx => List.all_eq_true.1 hall x (hpq.subset hx))
  · obtain rfl | ⟨t, rfl, ht⟩ := List.prefix_cons_iff.1 hpq
    · exact .inl rfl
    · exact .inr (by rw [List.prefix_nil.1 ht])

theorem at?_of_isTop (h : isTop path = true) : fs.at? path = some .directory := if_pos h

/-- **The way to something in the tree.** -/
def isWay (fs : Files) (path : List String) : Prop := ∃ node ∈ fs.nodes, path <+: node.1

theorem at?_of_not_isTop (h : isTop path = false) :
    fs.at? path = match fs.nodes.find? (·.1 == path) with
      | some (_, n) => some n
      | none => if fs.nodes.any fun (p, _) => path.isPrefixOf p then some .directory else none :=
  if_neg (Bool.eq_false_iff.1 h)

theorem any_isPrefixOf_iff : (fs.nodes.any fun (p, _) => path.isPrefixOf p) = true ↔ fs.isWay path := by
  rw [List.any_eq_true, isWay]
  simp only [List.isPrefixOf_iff_prefix]

/-- A node of a path shows, and where none is, whatever leads to one is a directory. -/
theorem at?_of_find? {q : List String} {n : Node} (h : isTop path = false)
    (hfind : fs.nodes.find? (·.1 == path) = some (q, n)) : fs.at? path = some n := by
  rw [at?_of_not_isTop h, hfind]

theorem at?_of_find?_none (h : isTop path = false) (hfind : fs.nodes.find? (·.1 == path) = none) :
    (fs.isWay path → fs.at? path = some .directory) ∧ (¬ fs.isWay path → fs.at? path = none) := by
  rw [at?_of_not_isTop h, hfind, ← any_isPrefixOf_iff]
  exact ⟨fun hany => if_pos hany, fun hany => if_neg hany⟩

theorem at?_ne_none_iff : fs.at? path ≠ none ↔ isTop path = true ∨ fs.isWay path := by
  cases htop : isTop path with
  | true => simp [at?_of_isTop htop]
  | false =>
    rw [or_iff_right Bool.false_ne_true]
    cases hfind : fs.nodes.find? (·.1 == path) with
    | some node =>
      have hpath := List.find?_some hfind
      rw [beq_iff_eq] at hpath
      have hway : fs.isWay path := ⟨node, List.mem_of_find?_eq_some hfind, hpath ▸ List.prefix_rfl⟩
      simp [at?_of_find? htop hfind, hway]
    | none =>
      obtain ⟨hway, hnot⟩ := at?_of_find?_none htop hfind
      by_cases h : fs.isWay path
      · simp [hway h, h]
      · simp [hnot h, h]

/-- What holds something that is there is there, too. -/
theorem at?_ne_none_of_leading {p q : List String} (hpq : p <+: q) (hq : fs.at? q ≠ none) : fs.at? p ≠ none := by
  rw [at?_ne_none_iff] at hq ⊢
  obtain htop | ⟨node, hnode, hprefix⟩ := hq
  · exact .inl (isTop_of_leading hpq htop)
  · exact .inr ⟨node, hnode, hpq.trans hprefix⟩

/-- **A walk ends in a directory**, if it starts in one. -/
theorem at?_of_walk : ∀ {parts start : List String} {last : Option String},
    fs.at? start = some .directory → fs.walk start parts = .ok (directory, last) → fs.at? directory = some .directory
  | [], start, last, hstart, h => by
    cases h
    exact hstart
  | [part], start, last, hstart, h => by
    cases h
    exact hstart
  | part :: next :: parts, start, last, hstart, h => by
    rw [walk] at h
    obtain ⟨here, -, h⟩ := bind_eq_ok.1 h
    split at h
    · rename_i hhere
      exact at?_of_walk hhere h
    · cases h
    · cases h
    · simp

theorem at?_of_locate {last : Option String} (h : fs.locate name = .ok (directory, last)) :
    fs.at? directory = some .directory := by
  unfold locate at h
  split at h
  · cases h
  split at h
  · cases h
  split at h
  · cases h
  refine at?_of_walk (at?_of_isTop ?_) h
  split <;> rfl

section Directories

variable (hdir : ∀ p, fs'.at? p = some .directory ↔ fs.at? p = some .directory)
include hdir

theorem walk_of_directories {x : List String × Option String} :
    ∀ {parts start : List String}, fs.walk start parts = .ok x → fs'.walk start parts = .ok x
  | [], start, h => h
  | [part], start, h => h
  | part :: next :: parts, start, h => by
    rw [walk] at h ⊢
    · obtain ⟨here, henter, h⟩ := bind_eq_ok.1 h
      refine bind_eq_ok.2 ⟨here, henter, ?_⟩
      split at h
      · rename_i hhere
        rw [(hdir here).2 hhere]
        exact walk_of_directories h
      · cases h
      · cases h
    · simp
    · simp

/-- **Where a name leads is decided by the directories alone.** -/
theorem place_of_directories (h : fs.place name = .ok path) : fs'.place name = .ok path := by
  unfold place at h ⊢
  obtain ⟨x, hx, h⟩ := bind_eq_ok.1 h
  refine bind_eq_ok.2 ⟨x, ?_, h⟩
  unfold locate at hx ⊢
  split at hx
  · cases hx
  · rename_i hnul
    split at hx
    · cases hx
    · rename_i hempty
      split at hx
      · cases hx
      · rename_i hlong
        rw [if_neg hnul, if_neg hempty, if_neg hlong]
        exact walk_of_directories hdir hx

end Directories

/-! ## Writing -/

/-- The tree with a file at a path. -/
def written (fs : Files) (path : List String) (bytes : ByteArray) : Files :=
  ⟨(path, .file bytes) :: fs.nodes.filter (·.1 != path)⟩

theorem enter_eq_ok {part : String} (hdots : isDots part = false) (h : enter directory part = .ok path) :
    path = directory ++ [part] := by
  rw [isDots, Bool.or_eq_false_iff, beq_eq_false_iff_ne, beq_eq_false_iff_ne] at hdots
  rw [enter, if_neg hdots.1, if_neg hdots.2] at h
  split at h <;> cases h
  rfl

/-- **A write that is made**: it puts a file into a directory, where no directory is. -/
theorem write_eq_ok (h : fs.write name bytes = .ok fs') :
    ∃ directory part, fs.place name = .ok (directory ++ [part]) ∧ fs.at? directory = some .directory ∧
      name.endsWith "/" = false ∧ fs.at? (directory ++ [part]) ≠ some .directory ∧
      fs' = fs.written (directory ++ [part]) bytes := by
  unfold write at h
  obtain ⟨⟨directory, last⟩, hlocate, h⟩ := bind_eq_ok.1 h
  cases last with
  | none => cases h
  | some part =>
    dsimp only at h
    split at h
    · cases h
    · rename_i hplain
      rw [Bool.or_eq_true, not_or, Bool.not_eq_true, Bool.not_eq_true] at hplain
      obtain ⟨path, hpath, h⟩ := bind_eq_ok.1 h
      have henter := enter_eq_ok hplain.1 hpath
      subst henter
      split at h
      · cases h
      · rename_i hnot
        cases h
        refine ⟨directory, part, ?_, at?_of_locate hlocate, hplain.2, hnot, rfl⟩
        rw [place, hlocate]
        exact hpath

/-- **A file can be written**, whatever it is to hold. -/
def Accepts (fs : Files) (name : String) : Prop := ∀ bytes, ∃ fs', fs.write name bytes = .ok fs'

/-- What it is to hold does not matter. -/
theorem accepts_of_write (h : fs.write name bytes = .ok fs') : fs.Accepts name := by
  intro bytes'
  unfold write at h ⊢
  obtain ⟨⟨directory, last⟩, hlocate, h⟩ := bind_eq_ok.1 h
  rw [hlocate, bind_ok]
  cases last with
  | none => cases h
  | some part =>
    dsimp only at h ⊢
    split at h
    · cases h
    · rename_i hplain
      rw [if_neg hplain]
      obtain ⟨path, hpath, h⟩ := bind_eq_ok.1 h
      rw [hpath, bind_ok]
      split at h
      · cases h
      · exact ⟨_, rfl⟩

section Written

variable {part : String} (hdirectory : fs.at? directory = some .directory)
  (hnot : fs.at? (directory ++ [part]) ≠ some .directory)

include hnot in
theorem at?_written_self : (fs.written (directory ++ [part]) bytes).at? (directory ++ [part]) = some (.file bytes) := by
  have htop : isTop (directory ++ [part]) = false := by
    rw [← Bool.not_eq_true]
    exact fun htop => hnot (at?_of_isTop htop)
  exact at?_of_find? htop (List.find?_cons_of_pos (by simp))

theorem find?_written {q : List String} (hq : q ≠ path) :
    (fs.written path bytes).nodes.find? (·.1 == q) = fs.nodes.find? (·.1 == q) := by
  rw [written, List.find?_cons_of_neg (by simpa using hq.symm), List.find?_filter]
  congr 1
  funext node
  by_cases h : node.1 = q
  · simp [h, hq]
  · simp [h]

include hdirectory in
/-- The way to the file was there before, as far as its directory. -/
theorem isWay_written_iff {q : List String} (hq : q ≠ directory ++ [part]) (htop : isTop q = false) :
    (fs.written (directory ++ [part]) bytes).isWay q ↔ fs.isWay q := by
  constructor
  · rintro ⟨node, hnode, hprefix⟩
    obtain rfl | hnode := List.mem_cons.1 hnode
    · have hstands := (List.prefix_concat_iff.1 hprefix).resolve_left hq
      have hne : fs.at? q ≠ none := at?_ne_none_of_leading hstands (by simp [hdirectory])
      exact (at?_ne_none_iff.1 hne).resolve_left (by rw [htop]; exact Bool.false_ne_true)
    · exact ⟨node, (List.mem_filter.1 hnode).1, hprefix⟩
  · rintro ⟨node, hnode, hprefix⟩
    by_cases h : node.1 = directory ++ [part]
    · exact ⟨_, List.mem_cons_self, h ▸ hprefix⟩
    · exact ⟨node, List.mem_cons_of_mem _ (List.mem_filter.2 ⟨hnode, by simpa using h⟩), hprefix⟩

include hdirectory in
/-- **All other paths have what they had.** -/
theorem at?_written_of_ne {q : List String} (hq : q ≠ directory ++ [part]) :
    (fs.written (directory ++ [part]) bytes).at? q = fs.at? q := by
  cases htop : isTop q with
  | true => rw [at?_of_isTop htop, at?_of_isTop htop]
  | false =>
    have hfind : (fs.written (directory ++ [part]) bytes).nodes.find? (·.1 == q) = fs.nodes.find? (·.1 == q) :=
      find?_written hq
    have hway : (fs.written (directory ++ [part]) bytes).isWay q ↔ fs.isWay q := isWay_written_iff hdirectory hq htop
    cases hnode : fs.nodes.find? (·.1 == q) with
    | some node =>
      rw [hnode] at hfind
      rw [at?_of_find? htop hfind, at?_of_find? htop hnode]
    | none =>
      rw [hnode] at hfind
      have h := at?_of_find?_none htop hnode
      have h' := at?_of_find?_none htop hfind
      by_cases hq : fs.isWay q
      · rw [h.1 hq, h'.1 (hway.2 hq)]
      · rw [h.2 hq, h'.2 fun hq' => hq (hway.1 hq')]

include hdirectory hnot in
/-- **No directory comes or goes.** -/
theorem at?_written_eq_directory_iff (q : List String) :
    (fs.written (directory ++ [part]) bytes).at? q = some .directory ↔ fs.at? q = some .directory := by
  by_cases hq : q = directory ++ [part]
  · rw [hq, at?_written_self hnot]
    exact ⟨fun h => (by cases h), fun h => absurd h hnot⟩
  · rw [at?_written_of_ne hdirectory hq]

end Written

/-- **Every name leads where it led before the write.** -/
theorem place_write_eq_ok_iff (h : fs.write name bytes = .ok fs') {other : String} {q : List String} :
    fs'.place other = .ok q ↔ fs.place other = .ok q := by
  obtain ⟨directory, part, -, hdirectory, -, hnot, rfl⟩ := write_eq_ok h
  have hdir (q : List String) : (fs.written (directory ++ [part]) bytes).at? q = some .directory ↔ _ :=
    at?_written_eq_directory_iff hdirectory hnot q
  exact ⟨place_of_directories fun q => (hdir q).symm, place_of_directories hdir⟩

/-- **The name written to leads to what was written.** -/
theorem view_write (h : fs.write name bytes = .ok fs') : fs'.view name = .ok (.file bytes) := by
  obtain ⟨directory, part, hpath, -, hend, hnot, rfl⟩ := write_eq_ok h
  refine view_eq_ok_iff.2 ⟨_, (place_write_eq_ok_iff h).2 hpath, at?_written_self hnot, fun hend' => ?_⟩
  rw [hend] at hend'
  cases hend'

/-- **A name that leads elsewhere shows what it showed before.** -/
theorem view_write_of_ne (h : fs.write name bytes = .ok fs') {other : String} (hne : fs.place other ≠ fs.place name)
    {n : Node} : fs'.view other = .ok n ↔ fs.view other = .ok n := by
  rw [view_eq_ok_iff, view_eq_ok_iff]
  simp only [place_write_eq_ok_iff h]
  refine exists_congr fun q => and_congr_right fun hq => ?_
  obtain ⟨directory, part, hpath, hdirectory, -, -, rfl⟩ := write_eq_ok h
  rw [at?_written_of_ne hdirectory fun heq => hne (by rw [hq, hpath, heq])]

end Files
end Command
end BranchChain
