import BranchChain.Proofs.Configuring
import BranchChain.Proofs.Failing
import BranchChain.Proofs.Writing
/-!
# Proofs.Executing — commands among files

A build among files is its table and what becomes of it: it is printed and perhaps written, and a failure leaves all
files as they were (`execute_build_sound`).  So does a build that breaks off, which happens for one reason only: more
handlers are asked for behind an anchor than there is room for (`Invocation.built_eq_trap_iff`).  The options about output
and log decide what is said, and nothing else.
-/
namespace BranchChain
namespace Command

variable {lib : Libraries} {i j : Invocation} {fs fs' : Files}

/-! ## Reports -/

/-- The files once a delivery is made. -/
def Files.deliver (fs : Files) : Option Delivery → Except FileError Files
  | none => .ok fs
  | some d => fs.write d.file d.text.toUTF8

section Reports

variable {colours : Bool} {log : List Event} {out : String} {rest : Option Delivery}

theorem execute_of_error {h : Halt Failure} (hr : report lib i fs.view colours = ⟨log, out, .error h⟩) :
    execute lib i fs colours = (⟨log, out, .error h⟩, fs) := by
  simp only [execute, Report.finish, hr]

theorem execute_of_delivered (h : report lib i fs.view colours = ⟨log, out, .ok rest⟩) (hd : fs.deliver rest = .ok fs') :
    execute lib i fs colours = (⟨log, out ++ rest.elim "" (·.notice), .ok ()⟩, fs') := by
  cases rest with
  | none =>
    cases hd
    simp only [execute, Report.finish, h, Option.elim_none, String.append_empty]
  | some d =>
    have hwrite : fs.write d.file d.text.toUTF8 = .ok fs' := hd
    simp only [execute, Report.finish, h, hwrite]
    rfl

theorem execute_of_undelivered {cause : FileError} (h : report lib i fs.view colours = ⟨log, out, .ok rest⟩)
    (hd : fs.deliver rest = .error cause) : execute lib i fs colours = (⟨log, out, .error (.fail (.output cause))⟩, fs) := by
  cases rest with
  | none => cases hd
  | some d =>
    have hwrite : fs.write d.file d.text.toUTF8 = .error cause := hd
    simp only [execute, Report.finish, h, hwrite]
    rfl

end Reports

/-! ## Builds -/

namespace Invocation

/-- **The files once a table is written**, if it is to be. -/
def written (i : Invocation) (fs : Files) (t : Table) : Except FileError Files :=
  match i.output with
  | none => .ok fs
  | some file => fs.write file t.jsonText.toUTF8

section Written

variable {t : Table}

theorem exists_written (i : Invocation) (t : Table) (haccepts : ∀ file, i.output = some file → fs.Accepts file) :
    ∃ fs', i.written fs t = .ok fs' := by
  unfold written
  cases houtput : i.output with
  | none => exact ⟨fs, rfl⟩
  | some file => exact haccepts file houtput _

theorem eq_of_written (hw : i.written fs t = .ok fs') (houtput : i.output = none) : fs' = fs := by
  rw [written, houtput] at hw
  exact (Except.ok.inj hw).symm

theorem write_of_written {file : String} (hw : i.written fs t = .ok fs') (houtput : i.output = some file) :
    fs.write file t.jsonText.toUTF8 = .ok fs' := by
  rw [written, houtput] at hw
  exact hw

end Written

/-- **What a build prints** of its table, in colours if they are on and not refused. -/
def printed (i : Invocation) (coloursOn : Bool) (t : Table) : String :=
  let colours := coloursOn && !i.noColor
  (if i.quiet then "" else t.render colours) ++ (deliveryOf i colours t).elim "" (·.notice)

theorem deliver_deliveryOf (i : Invocation) (fs : Files) (colours : Bool) (t : Table) :
    fs.deliver (deliveryOf i colours t) = i.written fs t := by
  unfold deliveryOf written
  cases i.output <;> rfl

end Invocation

variable (colours : Bool)

theorem execute_build_of_error {h : Halt Failure} (hi : i.action = .build) (hb : i.built lib fs.view = .error h) :
    ∃ log, execute lib i fs colours = (⟨log, "", .error h⟩, fs) := by
  obtain ⟨log, hreport⟩ := report_build_of_error colours hi hb
  exact ⟨log, execute_of_error hreport⟩

section Built

variable {t : Table} (hi : i.action = .build) (h : i.built lib fs.view = .ok t)
include hi h

theorem execute_build_of_written (hw : i.written fs t = .ok fs') :
    ∃ log, execute lib i fs colours = (⟨log, i.printed colours t, .ok ()⟩, fs') := by
  obtain ⟨log, hreport⟩ := report_build_of_ok colours hi h
  exact ⟨log, execute_of_delivered hreport ((i.deliver_deliveryOf fs _ t).trans hw)⟩

theorem execute_build_of_refused {cause : FileError} (hw : i.written fs t = .error cause) :
    ∃ log out, execute lib i fs colours = (⟨log, out, .error (.fail (.output cause))⟩, fs) := by
  obtain ⟨log, hreport⟩ := report_build_of_ok colours hi h
  exact ⟨log, _, execute_of_undelivered hreport ((i.deliver_deliveryOf fs _ t).trans hw)⟩

end Built

/-! ## Scans -/

section Scans

variable (hi : i.action = .scan)
include hi

theorem execute_scan_of_ok {found : Found} (h : i.sighted lib fs.view = .ok found) :
    ∃ log, execute lib i fs colours = (⟨log, if i.quiet then "" else found.line (colours && !i.noColor), .ok ()⟩, fs) := by
  obtain ⟨log, hreport⟩ := report_scan_of_ok colours hi h
  rw [execute_of_delivered hreport rfl, Option.elim_none, String.append_empty]
  exact ⟨log, rfl⟩

theorem execute_scan_of_error {f : Failure} (h : i.sighted lib fs.view = .error f) :
    ∃ log, execute lib i fs colours = (⟨log, "", .error (.fail f)⟩, fs) := by
  obtain ⟨log, hreport⟩ := report_scan_of_error colours hi h
  exact ⟨log, execute_of_error hreport⟩

end Scans

/-! ## All or nothing -/

/-- **Builds of one table end alike**: what is printed and logged has no part in it. -/
theorem execute_build_congr (fs : Files) (colours' : Bool) (hi : i.action = .build) (hj : j.action = .build)
    (hbuilt : i.built lib fs.view = j.built lib fs.view) (houtput : i.output = j.output) :
    (execute lib i fs colours).1.result = (execute lib j fs colours').1.result ∧
      (execute lib i fs colours).2 = (execute lib j fs colours').2 := by
  cases h : i.built lib fs.view with
  | error x =>
    obtain ⟨log, hend⟩ := execute_build_of_error colours hi h
    obtain ⟨log', hend'⟩ := execute_build_of_error colours' hj (hbuilt ▸ h)
    rw [hend, hend']
    exact ⟨rfl, rfl⟩
  | ok t =>
    have hwritten : i.written fs t = j.written fs t := by rw [Invocation.written, Invocation.written, houtput]
    cases hw : i.written fs t with
    | error cause =>
      obtain ⟨log, out, hend⟩ := execute_build_of_refused colours hi h hw
      obtain ⟨log', out', hend'⟩ := execute_build_of_refused colours' hj (hbuilt ▸ h) (hwritten ▸ hw)
      rw [hend, hend']
      exact ⟨rfl, rfl⟩
    | ok fs' =>
      obtain ⟨log, hend⟩ := execute_build_of_written colours hi h hw
      obtain ⟨log', hend'⟩ := execute_build_of_written colours' hj (hbuilt ▸ h) (hwritten ▸ hw)
      rw [hend, hend']
      exact ⟨rfl, rfl⟩

namespace Invocation

/-- **A build breaks off for want of room only**: it is ready, its anchor is found, and more handlers are asked for than any
list can hold. -/
theorem built_eq_trap_iff (i : Invocation) (v : FileView) (x : Trap) :
    i.built lib v = .error (.trap x) ↔ x = .capacity ∧ ∃ r k, i.source.ready lib v = .ok r ∧
      r.anchor.find r.code.image.memory r.code.entry r.settings.scanLimit.toNat = .ok k ∧
      Table.capacity < (i.count.getD r.settings.branchCount).toNat := by
  rw [i.built_eq, bind_eq_error]
  constructor
  · rintro (h | ⟨r, hready, h⟩)
    · obtain ⟨f, -, hf⟩ := mapError_eq_error.1 h
      cases hf
    · obtain ⟨y, hy, heq⟩ := mapError_eq_error.1 h
      cases y with
      | fail e => cases heq
      | trap y =>
        cases heq
        obtain ⟨hx, excess, k, hfind⟩ := (Recipe.build_eq_trap_iff r.code.image.exact_memory).1 hy
        exact ⟨hx, r, k, mapError_eq_ok.1 hready, hfind, excess⟩
  · rintro ⟨rfl, r, k, hready, hfind, excess⟩
    have htrap : (i.recipe r).build r.code.image.memory r.code.entry = .error (.trap .capacity) :=
      Recipe.build_overfull hfind excess
    exact .inr ⟨r, mapError_eq_ok.2 hready, by rw [htrap]; rfl⟩

end Invocation

/-- **A build is all or nothing.**  Where the steps of an invocation come to a table, the process ends well, the file
asked for holds the table's text, and all else stays as it is.  Where one of them fails, the first to fail is told in its
line, nothing is printed, and all files stay as they are.  Only where more handlers are asked for behind the anchor than
any list can hold does the process break off, and then too nothing is printed and no file touched.  Options about output
and log change neither the end nor the files. -/
theorem execute_build_sound (lib : Libraries) (i : Invocation) (hi : i.action = .build) (fs : Files) (colours : Bool)
    (haccepts : ∀ file, i.output = some file → fs.Accepts file) :
    (∀ t, i.built lib fs.view = .ok t →
      (execute lib i fs colours).1.code = 0 ∧
      (i.output = none → (execute lib i fs colours).2 = fs) ∧
      ∀ file, i.output = some file →
        (execute lib i fs colours).2.view file = .ok (.file t.jsonText.toUTF8) ∧
        ∀ other n, fs.place other ≠ fs.place file →
          ((execute lib i fs colours).2.view other = .ok n ↔ fs.view other = .ok n)) ∧
    (∀ f, i.built lib fs.view = .error (.fail f) →
      (execute lib i fs colours).1.code = 1 ∧
      (execute lib i fs colours).1.diagnostics i colours =
        logText colours (levelOf i.logLevel) (execute lib i fs colours).1.log ++
          (Text.paint (colours && !i.noColor) .red "[!]" ++ " " ++ f.told ++ "\n") ∧
      (execute lib i fs colours).1.out = "" ∧
      (execute lib i fs colours).2 = fs) ∧
    (∀ x, i.built lib fs.view = .error (.trap x) →
      (execute lib i fs colours).1.code = 101 ∧
      (execute lib i fs colours).1.out = "" ∧
      (execute lib i fs colours).2 = fs) ∧
    (∀ x, i.built lib fs.view = .error (.trap x) ↔ x = .capacity ∧ ∃ r k, i.source.ready lib fs.view = .ok r ∧
      r.anchor.find r.code.image.memory r.code.entry r.settings.scanLimit.toNat = .ok k ∧
      Table.capacity < (i.count.getD r.settings.branchCount).toNat) ∧
    ∀ logLevel quiet noColor colours',
      let j : Invocation := { i with logLevel, quiet, noColor }
      (execute lib j fs colours').1.code = (execute lib i fs colours).1.code ∧
      (execute lib j fs colours').1.result = (execute lib i fs colours).1.result ∧
      (execute lib j fs colours').2 = (execute lib i fs colours).2 := by
  refine ⟨fun t ht => ?_, fun f hf => ?_, fun x hx => ?_, i.built_eq_trap_iff fs.view,
    fun logLevel quiet noColor colours' => ?_⟩
  · obtain ⟨fs', hw⟩ := i.exists_written t haccepts
    obtain ⟨log, hend⟩ := execute_build_of_written colours hi ht hw
    rw [hend]
    refine ⟨rfl, fun houtput => Invocation.eq_of_written hw houtput, fun file houtput => ?_⟩
    have hwrite := Invocation.write_of_written hw houtput
    exact ⟨Files.view_write hwrite, fun other n hne => Files.view_write_of_ne hwrite hne⟩
  · obtain ⟨log, hend⟩ := execute_build_of_error colours hi hf
    rw [hend, ← f.message_eq_told]
    exact ⟨rfl, rfl, rfl, rfl⟩
  · obtain ⟨log, hend⟩ := execute_build_of_error colours hi hx
    rw [hend]
    exact ⟨rfl, rfl, rfl⟩
  · intro j
    have hj : j.action = .build := hi
    have hbuilt : j.built lib fs.view = i.built lib fs.view := rfl
    obtain ⟨hresult, hfiles⟩ := execute_build_congr colours' fs colours hj hi hbuilt rfl
    exact ⟨by rw [Outcome.code, Outcome.code, hresult], hresult, hfiles⟩

theorem smallTree_accepts : smallTree.Accepts "t.json" := by
  have hsome : (smallTree.write "t.json" .empty).toOption.isSome = true := by decide +kernel
  obtain ⟨fs', hfs'⟩ := Option.isSome_iff_exists.1 hsome
  exact Files.accepts_of_write (eq_ok_of_toOption hfs')

/-- The table of one handler behind an anchor at 1 goes into a file beside the settings, which stay as they are, also for
an invocation that says nothing; nothing is left of an invocation that names no code, nor of one that asks for the largest
number of handlers. -/
theorem execute_build_sound_smallTree :
    let i : Invocation := ⟨.build, smallSource, some 1, some "t.json", "info", false, false⟩
    let t : Table := ⟨⟨0x1000⟩, 1, [⟨0, ⟨0x1006⟩, 2, .short, 2⟩]⟩
    (execute .atHand i smallTree false).1.code = 0 ∧
    (execute .atHand i smallTree false).2.view "t.json" = .ok (.file t.jsonText.toUTF8) ∧
    (∀ n, (execute .atHand i smallTree false).2.view "c.json" = .ok n ↔ smallTree.view "c.json" = .ok n) ∧
    (execute .atHand { i with quiet := true } smallTree true).2 = (execute .atHand i smallTree false).2 ∧
    (execute .atHand { i with source := {} } smallTree false).1.diagnostics i false =
      "[!] Either --binary or --raw must be specified\n" ∧
    (execute .atHand { i with source := {} } smallTree false).2 = smallTree ∧
    (execute .atHand { i with count := some 0xffffffffffffffff } smallTree false).1.code = 101 := by
  intro i t
  have haccepts : ∀ file, some "t.json" = some file → smallTree.Accepts file := by
    intro file hfile
    cases hfile
    exact smallTree_accepts
  have hbuilt : i.built .atHand smallTree.view = .ok t := eq_ok_of_toOption (by decide +kernel)
  obtain ⟨hok, -, -, -, hsame⟩ := execute_build_sound .atHand i rfl smallTree false haccepts
  obtain ⟨hcode, -, hfile⟩ := hok t hbuilt
  obtain ⟨hview, hother⟩ := hfile "t.json" rfl
  have hplace : smallTree.place "c.json" ≠ smallTree.place "t.json" := by
    have hc : smallTree.place "c.json" = .ok ["c.json"] := eq_ok_of_toOption (by decide +kernel)
    have ht : smallTree.place "t.json" = .ok ["t.json"] := eq_ok_of_toOption (by decide +kernel)
    rw [hc, ht]
    simp
  obtain ⟨-, hfail, -⟩ := execute_build_sound .atHand { i with source := {} } rfl smallTree false haccepts
  obtain ⟨-, hline, -, hfiles'⟩ := hfail (.source .noFile) rfl
  have hover : ({ i with count := some 0xffffffffffffffff } : Invocation).built .atHand smallTree.view =
      .error (.trap .capacity) := by decide +kernel
  obtain ⟨-, -, hbreak, -⟩ :=
    execute_build_sound .atHand { i with count := some 0xffffffffffffffff } rfl smallTree false haccepts
  exact ⟨hcode, hview, fun n => hother "c.json" n hplace, (hsame "info" true false true).2.2,
    hline.trans (by decide +kernel), hfiles', (hbreak .capacity hover).1⟩

end Command
end BranchChain
