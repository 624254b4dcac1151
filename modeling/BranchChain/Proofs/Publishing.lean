import BranchChain.Table.Cell
/-!
# Proofs.Publishing — calls on a cell, one after the other

A build runs in a world: it may look at it, and leave its marks there whether it succeeds or not.  So what a build gives
depends on which builds ran before it, and a build that does not run leaves no mark.  Behind any calls a cell holds what
the first of their builds that succeeded gave, as their replies tell (`Cell.table?_serveAll`), and from then on no build
runs and no world changes (`Cell.serveAll_of_some`).  What a next call is told follows from there (`Cell.publishes_once`).
-/
namespace BranchChain
namespace Cell

variable {σ : Type}

/-- **A call on a cell**, in a world that its build may look at and change. -/
inductive Call (σ : Type) where
  | getOrBuild (build : σ → Except (Halt BuildError) Table × σ)
  | get
  | isBuilt

inductive Reply where
  | access (answer : Except (Halt BuildError) Table) (ran : Bool)
  | table (t? : Option Table)
  | built (b : Bool)

def Reply.success? : Reply → Option Table
  | .access (.ok t) true => some t
  | _ => none

/-- **A cell and the world around it.** -/
structure Scene (σ : Type) where
  cell : Cell
  world : σ

def Scene.new (w : σ) : Scene σ := ⟨{}, w⟩

/-- One call: its reply, and the scene behind it.  Only a build that runs changes the world. -/
def serve (s : Scene σ) : Call σ → Reply × Scene σ
  | .getOrBuild build =>
    let access := s.cell.getOrBuild fun _ => (build s.world).1
    (.access access.answer access.ran, ⟨access.cell, if access.ran then (build s.world).2 else s.world⟩)
  | .get => (.table s.cell.table?, s)
  | .isBuilt => (.built s.cell.isBuilt, s)

/-- **Calls one after the other**: all replies, and the scene behind them. -/
def serveAll (s : Scene σ) : List (Call σ) → List Reply × Scene σ
  | [] => ([], s)
  | call :: calls => ((serve s call).1 :: (serveAll (serve s call).2 calls).1, (serveAll (serve s call).2 calls).2)

/-! ## One call -/

section Serve

variable {s : Scene σ} {t : Table} (build : σ → Except (Halt BuildError) Table × σ)

theorem serve_build_of_some (h : s.cell.table? = some t) : serve s (.getOrBuild build) = (.access (.ok t) false, s) := by
  simp [serve, getOrBuild, h]

theorem serve_build_of_none (h : s.cell.table? = none) :
    serve s (.getOrBuild build) = (.access (build s.world).1 true, ⟨⟨(build s.world).1.toOption⟩, (build s.world).2⟩) := by
  obtain ⟨⟨_⟩, w⟩ := s
  cases h
  simp only [serve, getOrBuild]
  cases (build w).1 <;> rfl

/-- **A call tells of a success, or leaves the table as it is.** -/
theorem table?_serve (s : Scene σ) (call : Call σ) :
    (serve s call).2.cell.table? = s.cell.table?.or (serve s call).1.success? := by
  cases call with
  | get => exact (Option.or_none).symm
  | isBuilt => exact (Option.or_none).symm
  | getOrBuild build =>
    cases h : s.cell.table? with
    | some t =>
      rw [serve_build_of_some build h, h]
      rfl
    | none =>
      rw [serve_build_of_none build h]
      cases (build s.world).1 <;> rfl

end Serve

/-! ## Many calls -/

theorem serveAll_append (s : Scene σ) : ∀ before after : List (Call σ),
    serveAll s (before ++ after) =
      ((serveAll s before).1 ++ (serveAll (serveAll s before).2 after).1, (serveAll (serveAll s before).2 after).2)
  | [], after => rfl
  | call :: before, after => by
    rw [List.cons_append, serveAll, serveAll_append (serve s call).2 before after]
    rfl

theorem length_serveAll (s : Scene σ) : ∀ calls : List (Call σ), (serveAll s calls).1.length = calls.length
  | [] => rfl
  | call :: calls => congrArg (· + 1) (length_serveAll (serve s call).2 calls)

/-- **The table behind calls** is the one that was there, or that of their first success. -/
theorem table?_serveAll (s : Scene σ) : ∀ calls : List (Call σ),
    (serveAll s calls).2.cell.table? = s.cell.table?.or ((serveAll s calls).1.findSome? Reply.success?)
  | [] => Option.or_none.symm
  | call :: calls => by
    rw [serveAll, table?_serveAll (serve s call).2 calls, table?_serve, Option.or_assoc, List.findSome?_cons]
    cases (serve s call).1.success? <;> rfl

/-- **A published table stays**, and so does the world. -/
theorem serveAll_of_some {s : Scene σ} {t : Table} (h : s.cell.table? = some t) : ∀ calls : List (Call σ),
    (serveAll s calls).2 = s
  | [] => rfl
  | call :: calls => by
    have hs : (serve s call).2 = s := by
      cases call with
      | getOrBuild build => rw [serve_build_of_some build h]
      | get => rfl
      | isBuilt => rfl
    rw [serveAll, hs, serveAll_of_some h calls]

theorem reply_serveAll (s : Scene σ) (before after : List (Call σ)) (call : Call σ) :
    (serveAll s (before ++ call :: after)).1[before.length]? = some (serve (serveAll s before).2 call).1 := by
  rw [serveAll_append, List.getElem?_append_right (Nat.le_of_eq (length_serveAll s before)), length_serveAll, Nat.sub_self]
  rfl

theorem success?_eq_none_iff {r : Reply} : r.success? = none ↔ ∀ t, r ≠ .access (.ok t) true := by
  cases r with
  | table => simp [Reply.success?]
  | built => simp [Reply.success?]
  | access answer ran => cases answer <;> cases ran <;> simp [Reply.success?]

/-- **A cell publishes the first success and nothing else.**  Behind any calls it gives out the table of the first build
that ran and succeeded, if there is one.  A build runs just if none before it did so, and then its answer is passed on: a
failure leaves the cell empty.  Once there is a table every request is answered by it, and no later call changes the cell
or lets a build touch the world. -/
theorem publishes_once (before after : List (Call σ)) (w : σ) :
    let told := (serveAll (.new w) before).1
    let here := (serveAll (.new w) before).2.world
    let first := told.findSome? Reply.success?
    let reply (call : Call σ) := (serveAll (.new w) (before ++ call :: after)).1[before.length]?
    reply .get = some (.table first) ∧ reply .isBuilt = some (.built first.isSome) ∧
    (∀ build, (∃ answer, reply (.getOrBuild build) = some (.access answer true)) ↔
      ∀ r ∈ told, ∀ t, r ≠ .access (.ok t) true) ∧
    (first = none → ∀ build, reply (.getOrBuild build) = some (.access (build here).1 true) ∧
      (serveAll (.new w) (before ++ [.getOrBuild build])).2 = ⟨⟨(build here).1.toOption⟩, (build here).2⟩) ∧
    (∀ t, first = some t → (∀ build, reply (.getOrBuild build) = some (.access (.ok t) false)) ∧
      (serveAll (.new w) (before ++ after)).2 = ⟨⟨some t⟩, here⟩) := by
  intro told here first reply
  have hcell : (serveAll (.new w) before).2.cell.table? = first := table?_serveAll (.new w) before
  have hreply (call : Call σ) : reply call = some (serve (serveAll (.new w) before).2 call).1 :=
    reply_serveAll (.new w) before after call
  have hbehind (call : Call σ) : (serveAll (.new w) (before ++ [call])).2 = (serve (serveAll (.new w) before).2 call).2 := by
    rw [serveAll_append]
    rfl
  have hnone (h : first = none) (build : σ → Except (Halt BuildError) Table × σ) :=
    serve_build_of_none build (hcell.trans h)
  have hsome {t : Table} (h : first = some t) (build : σ → Except (Halt BuildError) Table × σ) :=
    serve_build_of_some build (hcell.trans h)
  refine ⟨?_, ?_, fun build => ?_, fun h build => ?_, fun t h => ⟨fun build => ?_, ?_⟩⟩
  · rw [hreply, ← hcell]
    rfl
  · rw [hreply, ← hcell]
    rfl
  · rw [hreply]
    have hfirst : first = none ↔ ∀ r ∈ told, ∀ t, r ≠ .access (.ok t) true := by
      simp only [first, List.findSome?_eq_none_iff, success?_eq_none_iff]
    rw [← hfirst]
    cases h : first with
    | none => simp [hnone h]
    | some t => simp [hsome h]
  · rw [hreply, hbehind, hnone h]
    exact ⟨rfl, rfl⟩
  · rw [hreply, hsome h]
  · rw [serveAll_append, serveAll_of_some (hcell.trans h)]
    exact congrArg (Scene.mk · here) (congrArg Cell.mk (hcell.trans h))

/-- A build that fails at first and succeeds when asked again. -/
def secondTime : Call Nat :=
  .getOrBuild fun n => (if n = 0 then .error (.fail (.preambleNotFound 7)) else .ok ⟨⟨0x1000⟩, 8, []⟩, n + 1)

/-- The failure leaves nothing behind but its mark on the world, and the success is not repeated. -/
theorem publishes_once_secondTime :
    (serveAll (.new 0) [secondTime]).2 = (⟨⟨none⟩, 1⟩ : Scene Nat) ∧
    (serveAll (.new 0) [secondTime, secondTime]).2 = (⟨⟨some ⟨⟨0x1000⟩, 8, []⟩⟩, 2⟩ : Scene Nat) ∧
    (serveAll (.new 0) [secondTime, .get, secondTime, secondTime, .get]).2 =
      (⟨⟨some ⟨⟨0x1000⟩, 8, []⟩⟩, 2⟩ : Scene Nat) := by
  obtain ⟨-, -, -, hempty, -⟩ := publishes_once [] [] 0
  obtain ⟨-, -, -, hfailed, -⟩ := publishes_once [secondTime] [] 0
  obtain ⟨-, -, -, -, hbuilt⟩ := publishes_once [secondTime, .get, secondTime] [secondTime, .get] 0
  exact ⟨(hempty rfl _).2, (hfailed rfl _).2, (hbuilt _ rfl).2⟩

end Cell
end BranchChain
