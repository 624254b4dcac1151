import BranchChain.Proofs.Displaying
import BranchChain.Proofs.Executing
import BranchChain.Proofs.Reporting
/-!
# Proofs.Sighting — a scan and a build of no handlers

A scan reads its anchor before it opens the code, a build behind that, and each has errors of its own for the search.
Still a scan comes to the table of no handlers, or both fail alike (`Invocation.sighted_or_built`): up to the search they
do the same (`Source.ready`), and the search of a recovery fails as the search by itself.  Failures that are alike are
told in the same line (`Failure.Alike.told_eq`).
-/
namespace BranchChain

/-- A failed search reads the same in a recovery. -/
theorem BuildError.causes_ofSearch (e : SearchError) : (ofSearch e).causes = e.causes := by
  cases e <;> rfl

namespace Recipe

variable {r : Recipe} {m : Memory} {entry : Address}

/-- **A recipe of no handlers ends where its search ends.** -/
theorem build_of_no_branches (hcount : r.branchCount = 0) : r.build m entry =
    ((r.anchor.find m entry r.scanLimit).map fun k => ⟨entry, k, []⟩).mapError (.fail ∘ .ofSearch) := by
  cases h : r.anchor.find m entry r.scanLimit with
  | error e => exact build_of_find_error h
  | ok k => exact build_zero hcount h

end Recipe

namespace Command

/-- **Failures of a scan and of a build that are alike**: they are the same, or one failed search by both its names. -/
def Failure.Alike (f g : Failure) : Prop := f = g ∨ ∃ e, f = .search e ∧ g = .build (.ofSearch e)

/-- Failures that are alike are told in the same line. -/
theorem Failure.Alike.told_eq {f g : Failure} (h : f.Alike g) : f.told = g.told := by
  obtain rfl | ⟨e, rfl, rfl⟩ := h
  · rfl
  · rw [← message_eq_told, ← message_eq_told, message, message, causes, causes, BuildError.causes_ofSearch]

variable {i j : Invocation}

/-- **A scan comes to the table of no handlers**, or both fail alike. -/
theorem Invocation.sighted_or_built (lib : Libraries) (v : FileView) (hsource : i.source = j.source)
    (hcount : j.count = some 0) :
    (∃ found : Found, i.sighted lib v = .ok found ∧ j.built lib v = .ok ⟨found.entry, found.offset, []⟩) ∨
    ∃ f g, i.sighted lib v = .error f ∧ j.built lib v = .error (.fail g) ∧ f.Alike g := by
  rw [sighted_eq, built_eq, hsource]
  cases j.source.ready lib v with
  | error f => exact .inr ⟨f, f, rfl, rfl, .inl rfl⟩
  | ok r =>
    have hbranches : (j.recipe r).branchCount = 0 := by
      rw [recipe, hcount]
      rfl
    have hsearch : (j.recipe r).build r.code.image.memory r.code.entry =
        ((r.anchor.find r.code.image.memory r.code.entry r.settings.scanLimit.toNat).map fun k =>
          Table.mk r.code.entry k []).mapError (.fail ∘ .ofSearch) := Recipe.build_of_no_branches hbranches
    rw [bind_ok, mapError_ok, bind_ok, hsearch]
    cases r.anchor.find r.code.image.memory r.code.entry r.settings.scanLimit.toNat with
    | ok k => exact .inl ⟨⟨r.anchor, r.code.entry, k⟩, rfl, rfl⟩
    | error e => exact .inr ⟨.search e, .build (.ofSearch e), rfl, rfl, .inr ⟨e, rfl, rfl⟩⟩

/-- **A printed table can be read back**: without the marks of its colours, what is printed for it shows that table, and
only a notice may stand behind. -/
theorem Invocation.exists_printed (j : Invocation) (coloursOn : Bool) (t : Table) (hquiet : j.quiet = false) :
    ∃ shown notice, j.printed coloursOn t = shown ++ notice ∧ (j.output = none → notice = "") ∧
      Table.ofDisplay? (Text.erase Text.tableMarks shown) = some t := by
  refine ⟨t.render (coloursOn && !j.noColor), _, by rw [printed, hquiet]; rfl, fun houtput => ?_, ?_⟩
  · rw [deliveryOf, houtput]
    rfl
  · rw [t.erase_render, Table.ofDisplay?_render]

/-- **A scan and a build of no handlers agree.**  Both end well, and what the scan prints is the offset of the table that
the build prints and writes, and the entry and that offset together; that table is read back from what is printed and from
what is written.  Or both fail alike, and tell so in the same line. -/
theorem execute_scan_agrees_with_build (lib : Libraries) (i j : Invocation) (hi : i.action = .scan) (hj : j.action = .build)
    (hsource : i.source = j.source) (hcount : j.count = some 0) (fs : Files) (colours : Bool)
    (haccepts : ∀ file, j.output = some file → fs.Accepts file) :
    (∃ (t : Table) (p : Pattern), j.built lib fs.view = .ok t ∧ t.slots = [] ∧
      i.sighted lib fs.view = .ok ⟨p, t.entry, t.preambleOffset⟩ ∧
      (execute lib i fs colours).1.code = 0 ∧ (execute lib j fs colours).1.code = 0 ∧
      (execute lib i fs colours).1.out =
        (if i.quiet then "" else Text.paint (colours && !i.noColor) .green "[+]" ++ " " ++ p.text ++ " at "
          ++ (t.entry + t.preambleOffset).text ++ " (fn+0x" ++ Text.hex t.preambleOffset.toNat ++ ")\n") ∧
      (t.entry + t.preambleOffset).toNat = (t.entry.toNat + t.preambleOffset.toNat) % UInt64.size ∧
      (execute lib j fs colours).1.out = j.printed colours t ∧
      (j.quiet = false → ∃ shown notice, (execute lib j fs colours).1.out = shown ++ notice ∧
        (j.output = none → notice = "") ∧ Table.ofDisplay? (Text.erase Text.tableMarks shown) = some t) ∧
      ∀ file, j.output = some file → (execute lib j fs colours).2.view file = .ok (.file t.jsonText.toUTF8) ∧
        Table.ofText? t.jsonText = some t) ∨
    ∃ f g : Failure, f.Alike g ∧ f.told = g.told ∧
      (execute lib i fs colours).1.code = 1 ∧ (execute lib i fs colours).1.result = .error (.fail f) ∧
      (execute lib i fs colours).1.diagnostics i colours =
        logText colours (levelOf i.logLevel) (execute lib i fs colours).1.log ++
          (Text.paint (colours && !i.noColor) .red "[!]" ++ " " ++ f.told ++ "\n") ∧
      (execute lib j fs colours).1.code = 1 ∧ (execute lib j fs colours).1.result = .error (.fail g) ∧
      (execute lib j fs colours).1.diagnostics j colours =
        logText colours (levelOf j.logLevel) (execute lib j fs colours).1.log ++
          (Text.paint (colours && !j.noColor) .red "[!]" ++ " " ++ g.told ++ "\n") := by
  obtain ⟨⟨p, entry, offset⟩, hsighted, hbuilt⟩ | ⟨f, g, hsighted, hbuilt, halike⟩ :=
    Invocation.sighted_or_built lib fs.view hsource hcount
  · obtain ⟨fs', hw⟩ := j.exists_written ⟨entry, offset, []⟩ haccepts
    obtain ⟨log, hscan⟩ := execute_scan_of_ok colours hi hsighted
    obtain ⟨log', hbuild⟩ := execute_build_of_written colours hj hbuilt hw
    rw [hscan, hbuild]
    refine .inl ⟨_, p, hbuilt, rfl, hsighted, rfl, rfl, rfl, UInt64.toNat_add _ _, rfl, j.exists_printed colours _,
      fun file hfile => ⟨?_, Table.ofText?_jsonText _⟩⟩
    exact Files.view_write (Invocation.write_of_written hw hfile)
  · obtain ⟨log, hscan⟩ := execute_scan_of_error colours hi hsighted
    obtain ⟨log', hbuild⟩ := execute_build_of_error colours hj hbuilt
    rw [hscan, hbuild]
    refine .inr ⟨f, g, halike, halike.told_eq, rfl, rfl, ?_, rfl, rfl, ?_⟩
    · rw [← f.message_eq_told]
      rfl
    · rw [← g.message_eq_told]
      rfl

/-- The anchor at 1 is printed by the scan and written by the build; within a limit of 1 it is not there for either. -/
theorem execute_scan_agrees_with_build_smallTree :
    let i : Invocation := { action := .scan, source := smallSource }
    let j : Invocation := { action := .build, source := smallSource, count := some 0, output := some "t.json" }
    let near : Source := { smallSource with scanLimit := some 1 }
    (execute .atHand i smallTree false).1.out = "[+] anchor [cc] at 0x0000000000001001 (fn+0x1)\n" ∧
    (execute .atHand j smallTree false).2.view "t.json" = .ok (.file (Table.mk ⟨0x1000⟩ 1 []).jsonText.toUTF8) ∧
    ∃ f g, f.told = g.told ∧ (execute .atHand { i with source := near } smallTree false).1.result = .error (.fail f) ∧
      (execute .atHand { j with source := near } smallTree false).1.result = .error (.fail g) := by
  intro i j near
  have haccepts : ∀ file, some "t.json" = some file → smallTree.Accepts file := by
    intro file hfile
    cases hfile
    exact smallTree_accepts
  have hbuilt : j.built .atHand smallTree.view = .ok ⟨⟨0x1000⟩, 1, []⟩ := by decide +kernel
  have hanchor : (i.sighted .atHand smallTree.view).toOption.map (·.anchor) = some ⟨[0xcc], some "anchor"⟩ := by
    decide +kernel
  have hfound : (execute .atHand i smallTree false).1.code = 0 := by decide +kernel
  have hmissed : (execute .atHand { i with source := near } smallTree false).1.code = 1 := by decide +kernel
  have hagree := execute_scan_agrees_with_build .atHand i j rfl rfl rfl rfl smallTree false haccepts
  have hagree_near := execute_scan_agrees_with_build .atHand { i with source := near } { j with source := near } rfl rfl rfl
    rfl smallTree false haccepts
  obtain ⟨t, p, ht, -, hsighted, -, -, hout, -, -, -, hfile⟩ | ⟨-, -, -, -, hcode, -⟩ := hagree
  · obtain rfl : Table.mk ⟨0x1000⟩ 1 [] = t := Except.ok.inj (hbuilt.symm.trans ht)
    rw [hsighted] at hanchor
    obtain rfl : p = ⟨[0xcc], some "anchor"⟩ := Option.some.inj hanchor
    refine ⟨hout.trans (by decide +kernel), (hfile "t.json" rfl).1, ?_⟩
    obtain ⟨-, -, -, -, -, hcode, -⟩ | ⟨f, g, -, htold, -, hf, -, -, hg, -⟩ := hagree_near
    · rw [hmissed] at hcode
      cases hcode
    · exact ⟨f, g, htold, hf, hg⟩
  · rw [hfound] at hcode
    cases hcode

end Command
end BranchChain
