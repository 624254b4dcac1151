import BranchChain.Command.Run
import BranchChain.Proofs.Results
/-!
# Proofs.Stepping — commands as sequences of steps

A step of a command tells events as it goes, but no step ever looks at what was told.  So a command ends as its steps
end that may fail, one after the other and each fed by those before it: the table of an invocation is
`Invocation.built`, its marker `Invocation.sighted`.  Neither knows of the options about output and log.  Only the building
of a table may break off, so nothing else has to be asked about traps.
-/
namespace BranchChain
namespace Command

/-! ## Steps that tell -/

/-- **A step ends in a result**, whatever was told before it. -/
def Yields {α : Type} (x : Trace α) (r : Except (Halt Failure) α) : Prop :=
  ∀ told, ∃ told', x.run.run told = (r, told')

/-- **A step ends in a result and never breaks off.** -/
def YieldsSafely {α : Type} (x : Trace α) (r : Except Failure α) : Prop := Yields x (r.mapError .fail)

namespace Yields

variable {α β : Type} {x : Trace α} {r : Except (Halt Failure) α}

theorem tell (es : List Event) : Yields (tell es) (.ok ()) := fun told => ⟨told ++ es, rfl⟩

theorem orHalt {ε : Type} (cause : ε → Failure) (y : Except (Halt ε) α) :
    Yields (orHalt cause y) (y.mapError (.map cause)) :=
  fun told => ⟨told, rfl⟩

theorem bind {f : α → Trace β} {g : α → Except (Halt Failure) β} (hx : Yields x r)
    (hf : ∀ a, r = .ok a → Yields (f a) (g a)) : Yields (x >>= f) (r >>= g) := by
  intro told
  obtain ⟨told', h⟩ := hx told
  show ∃ told', (ExceptT.bindCont f (x.run.run told).1).run (x.run.run told).2 = (r >>= g, told')
  rw [h]
  cases r with
  | error e => exact ⟨told', rfl⟩
  | ok a => exact hf a rfl told'

/-- What a step tells does not matter for the steps behind it. -/
theorem tell_bind {es : List Event} {f : Unit → Trace β} {s : Except (Halt Failure) β} (hf : Yields (f ()) s) :
    Yields (Command.tell es >>= f) s :=
  (tell es).bind fun _ _ => hf

/-- A step has one result only. -/
theorem eq_of_run (hx : Yields x r) (told : List Event) : (x.run.run told).1 = r := by
  obtain ⟨told', h⟩ := hx told
  rw [h]

end Yields

namespace YieldsSafely

variable {α β : Type} {x : Trace α} {r : Except Failure α}

theorem pure (a : α) : YieldsSafely (Pure.pure a : Trace α) (.ok a) := fun told => ⟨told, rfl⟩

theorem throw (e : Failure) : YieldsSafely (MonadExcept.throw (Halt.fail e) : Trace α) (.error e) := fun told => ⟨told, rfl⟩

theorem orFail {ε : Type} (cause : ε → Failure) (y : Except ε α) : YieldsSafely (orFail cause y) (y.mapError cause) := by
  cases y <;> exact fun told => ⟨told, rfl⟩

/-- Failures of a command stay what they are. -/
theorem orFail_id (y : Except Failure α) : YieldsSafely (Command.orFail id y) y := by
  cases y <;> exact fun told => ⟨told, rfl⟩

/-- A step that may break off, behind one that does not. -/
theorem bind_yields {f : α → Trace β} {g : α → Except (Halt Failure) β} (hx : YieldsSafely x r)
    (hf : ∀ a, r = .ok a → Yields (f a) (g a)) : Yields (x >>= f) (r.mapError .fail >>= g) :=
  Yields.bind hx fun a ha => hf a (mapError_eq_ok.1 ha)

theorem bind {f : α → Trace β} {g : α → Except Failure β} (hx : YieldsSafely x r)
    (hf : ∀ a, r = .ok a → YieldsSafely (f a) (g a)) : YieldsSafely (x >>= f) (r >>= g) := by
  have h := hx.bind_yields hf
  cases r <;> exact h

end YieldsSafely

/-! ## Opening code -/

/-- A file that can be read can be mapped, with the same bytes. -/
theorem FileView.map_of_read {v : FileView} {file : String} {bytes : ByteArray} (h : v.read file = .ok bytes) :
    v.map file = .ok bytes := by
  unfold read at h
  unfold map
  obtain ⟨n, hn, h⟩ := bind_eq_ok.1 h
  refine bind_eq_ok.2 ⟨n, hn, ?_⟩
  cases n with
  | file bytes' => exact h
  | directory => cases h

/-- **The code the options name, in its place**: a binary at the load base of the symbol, with the symbol's address as
entry; a dump at the base, which is its entry. -/
def Source.located (s : Source) (lib : Libraries) (v : FileView) : Except Failure Opened :=
  match s.code? with
  | none => .error .noCode
  | some (.raw file base) => do
    let bytes ← (v.map file).mapError (.memory ∘ .io)
    return ⟨⟨bytes, base⟩, base⟩
  | some (.binary file symbol) => do
    let bytes ← (v.read file).mapError (.symbol ∘ .io)
    let (table, _) ← (SymbolTable.ofBytes lib.parse bytes).mapError .symbol
    let entry ← (table.resolve symbol).mapError .symbol
    let base ← (table.loadBase symbol).mapError .symbol
    return ⟨⟨bytes, base⟩, entry⟩

theorem Source.yieldsSafely_opened (s : Source) (lib : Libraries) (v : FileView) :
    YieldsSafely (s.opened lib v) (s.located lib v) := by
  unfold opened located
  cases s.code? with
  | none => exact .throw _
  | some code =>
    cases code with
    | raw file base => exact (YieldsSafely.orFail _ _).bind fun bytes _ => .pure _
    | binary file symbol =>
      refine (YieldsSafely.orFail _ _).bind fun bytes hread => (YieldsSafely.orFail _ _).bind fun (table, event) _ => ?_
      refine Yields.tell_bind ((YieldsSafely.orFail _ _).bind fun entry _ => (YieldsSafely.orFail _ _).bind fun base _ => ?_)
      -- the file is read once more, to be mapped, and has not changed
      rw [FileView.map_of_read (mapError_eq_ok.1 hread)]
      exact Yields.tell_bind ((YieldsSafely.orFail _ _).bind fun bytes _ => .pure _)

/-! ## What a command asks for -/

namespace Invocation

/-- **The table of an invocation**: the options are checked, the settings loaded and the number of handlers put in, the
code opened, and the table built. -/
def built (i : Invocation) (lib : Libraries) (v : FileView) : Except (Halt Failure) Table := do
  (i.source.validate v).mapError (.fail ∘ .source)
  let s ← (i.source.settings lib v).mapError .fail
  let s : Settings := ⟨s.anchor, s.scanLimit, i.count.getD s.branchCount⟩
  let code ← (i.source.located lib v).mapError .fail
  let recipe ← s.recipe.mapError (.fail ∘ .build)
  (recipe.build code.image.memory code.entry).mapError (.map .build)

/-- **The marker of an invocation**: here the anchor is read before the code is opened. -/
def sighted (i : Invocation) (lib : Libraries) (v : FileView) : Except Failure Found := do
  (i.source.validate v).mapError .source
  let s ← i.source.settings lib v
  let anchor ← s.pattern.mapError .anchor
  let code ← i.source.located lib v
  let offset ← (anchor.find code.image.memory code.entry s.scanLimit.toNat).mapError .search
  return ⟨anchor, code.entry, offset⟩

end Invocation

theorem yields_tableOf (lib : Libraries) (i : Invocation) (v : FileView) : Yields (tableOf lib i v) (i.built lib v) := by
  unfold tableOf Invocation.built
  rw [← mapError_mapError]
  refine (YieldsSafely.orFail _ _).bind_yields fun _ _ => (YieldsSafely.orFail_id _).bind_yields fun s _ => ?_
  refine (i.source.yieldsSafely_opened lib v).bind_yields fun code _ => ?_
  rw [← mapError_mapError]
  exact (YieldsSafely.orFail _ _).bind_yields fun recipe _ => Yields.tell_bind (.orHalt _ _)

theorem yieldsSafely_markerOf (lib : Libraries) (i : Invocation) (v : FileView) :
    YieldsSafely (markerOf lib i v) (i.sighted lib v) := by
  unfold markerOf Invocation.sighted
  refine (YieldsSafely.orFail _ _).bind fun _ _ => (YieldsSafely.orFail_id _).bind fun s _ => ?_
  refine (YieldsSafely.orFail _ _).bind fun anchor _ => (i.source.yieldsSafely_opened lib v).bind fun code _ => ?_
  exact Yields.tell_bind ((YieldsSafely.orFail _ _).bind fun offset _ => .pure _)

/-! ## Reports -/

section Reports

variable {α : Type} {x : Trace α} (out : α → String) (rest : α → Option Delivery)

theorem reportOf_of_ok {a : α} (h : Yields x (.ok a)) : ∃ log, reportOf x out rest = ⟨log, out a, .ok (rest a)⟩ := by
  obtain ⟨told, h⟩ := h []
  rw [reportOf, h]
  exact ⟨told, rfl⟩

theorem reportOf_of_error {h : Halt Failure} (hx : Yields x (.error h)) :
    ∃ log, reportOf x out rest = ⟨log, "", .error h⟩ := by
  obtain ⟨told, hx⟩ := hx []
  rw [reportOf, hx]
  exact ⟨told, rfl⟩

end Reports

variable {lib : Libraries} {i : Invocation} {v : FileView} (colours : Bool)

/-- **A build prints the table of its invocation**, and leaves it to be written. -/
theorem report_build_of_ok {t : Table} (hi : i.action = .build) (h : i.built lib v = .ok t) :
    ∃ log, report lib i v colours =
      ⟨log, if i.quiet then "" else t.render (colours && !i.noColor), .ok (deliveryOf i (colours && !i.noColor) t)⟩ := by
  have hyields := yields_tableOf lib i v
  rw [h] at hyields
  rw [report, hi]
  exact reportOf_of_ok _ _ hyields

/-- **A scan prints the marker of its invocation**, and leaves nothing to do. -/
theorem report_scan_of_ok {found : Found} (hi : i.action = .scan) (h : i.sighted lib v = .ok found) :
    ∃ log, report lib i v colours = ⟨log, if i.quiet then "" else found.line (colours && !i.noColor), .ok none⟩ := by
  have hyields := yieldsSafely_markerOf lib i v
  rw [h] at hyields
  rw [report, hi]
  exact reportOf_of_ok _ _ hyields

theorem report_build_of_error {h : Halt Failure} (hi : i.action = .build) (hb : i.built lib v = .error h) :
    ∃ log, report lib i v colours = ⟨log, "", .error h⟩ := by
  have hyields := yields_tableOf lib i v
  rw [hb] at hyields
  rw [report, hi]
  exact reportOf_of_error _ _ hyields

theorem report_scan_of_error {f : Failure} (hi : i.action = .scan) (h : i.sighted lib v = .error f) :
    ∃ log, report lib i v colours = ⟨log, "", .error (.fail f)⟩ := by
  have hyields := yieldsSafely_markerOf lib i v
  rw [h] at hyields
  rw [report, hi]
  exact reportOf_of_error _ _ hyields

end Command
end BranchChain
