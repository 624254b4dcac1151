import BranchChain.Proofs.Finding
import BranchChain.Proofs.Spelling
import BranchChain.Proofs.Stepping
import BranchChain.Proofs.Telling
/-!
# Proofs.Configuring — settings that reach a command

Settings are checked in their file and again behind the options (`Source.settings_eq_ok_iff`).  What a command does with
them afterwards asks nothing more of them, so both commands come to the same place, `Source.ready`, and up to there fail
for the same reasons (`Source.ready_eq_error`): none of these is an anchor, and none is that no code was named.
-/
namespace BranchChain

/-! ## Settings from a file -/

namespace Settings

variable {s : Settings}

/-- **Settings that are loaded are what the text of their file tells, and valid.** -/
theorem load_eq_ok {describe : String → Json.ReadFault → String} {file : Except FileError ByteArray}
    (h : load describe file = .ok s) :
    ∃ bytes text d, file = .ok bytes ∧ String.fromUTF8? bytes = some text ∧ Tells (Json.tokens text.toList) d ∧
      s = d.settings ∧ s.validate = .ok () := by
  unfold load at h
  obtain ⟨bytes, hbytes, h⟩ := bind_eq_ok.1 h
  cases htext : String.fromUTF8? bytes with
  | none =>
    rw [htext] at h
    cases h
  | some text =>
    rw [htext] at h
    obtain ⟨s', hs', h⟩ := bind_eq_ok.1 h
    obtain ⟨_, hvalid, h⟩ := bind_eq_ok.1 h
    cases h
    obtain ⟨d, htells, hs⟩ := tells_of_ofJson (mapError_eq_ok.1 hs')
    exact ⟨bytes, text, d, mapError_eq_ok.1 hbytes, htext, htells, hs, mapError_eq_ok.1 hvalid⟩

theorem validate_default : validate {} = .ok () := eq_ok_of_toOption (by decide +kernel)

theorem recipe_eq_ok {p : Pattern} (h : s.pattern = .ok p) : s.recipe = .ok ⟨p, s.scanLimit.toNat, s.branchCount.toNat⟩ := by
  unfold recipe
  rw [h]

/-- The number of handlers is not part of the anchor. -/
theorem pattern_withCount (s : Settings) (count : UInt64) : pattern ⟨s.anchor, s.scanLimit, count⟩ = s.pattern := rfl

end Settings

namespace Command
namespace Source

variable {s : Source} {lib : Libraries} {v : FileView} {t c : Settings} {f : Failure}

/-- **What the settings file tells**; if none is named, nothing is told. -/
def FileTells (s : Source) (v : FileView) (d : Settings.Draft) : Prop :=
  match s.config with
  | none => d = {}
  | some file => ∃ bytes text, v.read file = .ok bytes ∧ String.fromUTF8? bytes = some text ∧
      Settings.Tells (Json.tokens text.toList) d

/-- A file tells one draft only. -/
theorem FileTells.unique {d d' : Settings.Draft} (h : s.FileTells v d) (h' : s.FileTells v d') : d = d' := by
  unfold FileTells at h h'
  cases hfile : s.config with
  | none =>
    rw [hfile] at h h'
    exact h.trans h'.symm
  | some file =>
    rw [hfile] at h h'
    obtain ⟨bytes, text, hbytes, htext, htells⟩ := h
    obtain ⟨bytes', text', hbytes', htext', htells'⟩ := h'
    obtain rfl : bytes = bytes' := Except.ok.inj (hbytes.symm.trans hbytes')
    obtain rfl : text = text' := Option.some.inj (htext.symm.trans htext')
    exact htells.unique htells'

theorem fileSettings_eq_ok (h : s.fileSettings lib v = .ok t) :
    ∃ d, s.FileTells v d ∧ t = d.settings ∧ t.validate = .ok () := by
  unfold fileSettings at h
  unfold FileTells
  split at h
  · rename_i file hfile
    obtain ⟨bytes, text, d, hbytes, htext, htells, ht, hvalid⟩ := Settings.load_eq_ok (mapError_eq_ok.1 h)
    rw [hfile]
    exact ⟨d, ⟨bytes, text, hbytes, htext, htells⟩, ht, hvalid⟩
  · rename_i hfile
    cases h
    rw [hfile]
    exact ⟨{}, rfl, rfl, Settings.validate_default⟩

theorem fileSettings_eq_error (h : s.fileSettings lib v = .error f) : ∃ e, f = .load e := by
  unfold fileSettings at h
  split at h
  · obtain ⟨e, -, he⟩ := mapError_eq_error.1 h
    exact ⟨e, he⟩
  · cases h

/-- **Settings are the file's, overruled by the options**, and valid. -/
theorem settings_eq_ok_iff :
    s.settings lib v = .ok c ↔ ∃ t, s.fileSettings lib v = .ok t ∧ c = s.overrule t ∧ c.validate = .ok () := by
  unfold settings
  rw [bind_eq_ok]
  refine exists_congr fun t => and_congr_right fun _ => ?_
  rw [bind_eq_ok]
  constructor
  · rintro ⟨_, hvalid, h⟩
    cases h
    exact ⟨rfl, mapError_eq_ok.1 hvalid⟩
  · rintro ⟨rfl, hvalid⟩
    exact ⟨(), mapError_eq_ok.2 hvalid, rfl⟩

theorem settings_eq_error (h : s.settings lib v = .error f) : (∃ e, f = .load e) ∨ ∃ e, f = .settings e := by
  unfold settings at h
  obtain h | ⟨t, -, h⟩ := bind_eq_error.1 h
  · exact .inl (fileSettings_eq_error h)
  · obtain h | ⟨_, -, h⟩ := bind_eq_error.1 h
    · obtain ⟨e, -, he⟩ := mapError_eq_error.1 h
      exact .inr ⟨e, he⟩
    · cases h

/-- The anchor of the settings is a pattern, and not the empty one. -/
theorem pattern_of_settings (h : s.settings lib v = .ok c) : ∃ p, c.pattern = .ok p ∧ p.bytes ≠ [] := by
  obtain ⟨t, -, -, hvalid⟩ := settings_eq_ok_iff.1 h
  exact (Settings.validate_eq_ok_iff.1 hvalid).1

/-! ## Code -/

/-- **Consistent options name code.** -/
theorem code?_of_validate (h : s.validate v = .ok ()) : s.code? ≠ none := by
  unfold validate at h
  unfold code?
  cases hbinary : s.binary with
  | none =>
    cases hraw : s.raw with
    | none =>
      rw [hbinary, hraw] at h
      cases h
    | some file =>
      cases hbase : s.base with
      | none => simp [hbinary, hraw, hbase] at h
      | some base => cases s.symbol <;> simp
  | some file =>
    cases hsymbol : s.symbol with
    | some symbol => simp
    | none => cases hraw : s.raw <;> simp [hbinary, hraw, hsymbol] at h

theorem located_eq_error (h : s.located lib v = .error f) :
    f = .noCode ∧ s.code? = none ∨ (∃ e, f = .symbol e) ∨ ∃ x, f = .memory x := by
  unfold located at h
  split at h
  · rename_i hcode
    cases h
    exact .inl ⟨rfl, hcode⟩
  · obtain h | ⟨bytes, -, h⟩ := bind_eq_error.1 h
    · obtain ⟨e, -, he⟩ := mapError_eq_error.1 h
      exact .inr (.inr ⟨_, he⟩)
    · cases h
  · have hsymbol {ε α : Type} {x : Except ε α} {g : ε → SymbolError} (h : x.mapError (.symbol ∘ g) = .error f) :
        ∃ e, f = .symbol e := by
      obtain ⟨e, -, he⟩ := mapError_eq_error.1 h
      exact ⟨_, he⟩
    refine .inr (.inl ?_)
    obtain h | ⟨bytes, -, h⟩ := bind_eq_error.1 h
    · exact hsymbol h
    obtain h | ⟨⟨table, event⟩, -, h⟩ := bind_eq_error.1 h
    · exact hsymbol h
    obtain h | ⟨entry, -, h⟩ := bind_eq_error.1 h
    · exact hsymbol h
    obtain h | ⟨base, -, h⟩ := bind_eq_error.1 h
    · exact hsymbol h
    · cases h

/-! ## Before the search -/

/-- **What both commands begin with**: settings, the anchor in them, and code. -/
structure Ready where
  settings : Settings
  anchor : Pattern
  code : Opened

/-- **The steps in front of every search.** -/
def ready (s : Source) (lib : Libraries) (v : FileView) : Except Failure Ready := do
  (s.validate v).mapError .source
  let c ← s.settings lib v
  let anchor ← c.pattern.mapError .anchor
  let code ← s.located lib v
  return ⟨c, anchor, code⟩

/-- **Nothing else goes wrong before the search.** -/
theorem ready_eq_error (h : s.ready lib v = .error f) :
    (∃ e, f = .source e) ∨ (∃ e, f = .load e) ∨ (∃ e, f = .settings e) ∨ (∃ e, f = .symbol e) ∨ ∃ x, f = .memory x := by
  unfold ready at h
  obtain h | ⟨_, hvalid, h⟩ := bind_eq_error.1 h
  · obtain ⟨e, -, he⟩ := mapError_eq_error.1 h
    exact .inl ⟨e, he⟩
  obtain h | ⟨c, hc, h⟩ := bind_eq_error.1 h
  · exact .inr ((settings_eq_error h).imp_right .inl)
  obtain ⟨p, hp, -⟩ := pattern_of_settings hc
  obtain h | ⟨_, -, h⟩ := bind_eq_error.1 h
  · rw [hp] at h
    cases h
  obtain h | ⟨code, -, h⟩ := bind_eq_error.1 h
  · obtain ⟨-, hnone⟩ | h := located_eq_error h
    · exact absurd hnone (code?_of_validate (mapError_eq_ok.1 hvalid))
    · exact .inr (.inr (.inr h))
  · cases h

end Source

namespace Invocation

open Source (Ready)

variable (i : Invocation) (lib : Libraries) (v : FileView)

/-- The recipe of an invocation that is ready. -/
def recipe (i : Invocation) (r : Ready) : Recipe :=
  ⟨r.anchor, r.settings.scanLimit.toNat, (i.count.getD r.settings.branchCount).toNat⟩

/-- **A build finds the anchor of its settings good a second time**, so it could have looked at it first. -/
theorem built_eq :
    i.built lib v = (i.source.ready lib v).mapError .fail >>= fun r =>
      ((i.recipe r).build r.code.image.memory r.code.entry).mapError (.map .build) := by
  unfold built Source.ready
  simp only [mapError_bind, mapError_mapError, bind_assoc]
  refine bind_congr_ok fun _ _ => bind_congr_ok fun c hc => ?_
  obtain ⟨p, hp, -⟩ := Source.pattern_of_settings (mapError_eq_ok.1 hc)
  -- the number of handlers is put in behind the check, and the anchor does not see it
  have hrecipe := Settings.recipe_eq_ok ((c.pattern_withCount (i.count.getD c.branchCount)).trans hp)
  rw [hp, hrecipe]
  show ((i.source.located lib v).mapError _ >>= _) = ((i.source.located lib v).mapError _ >>= _)
  exact bind_congr_ok fun code _ => rfl

theorem sighted_eq :
    i.sighted lib v = i.source.ready lib v >>= fun r =>
      ((r.anchor.find r.code.image.memory r.code.entry r.settings.scanLimit.toNat).map fun offset =>
        Found.mk r.anchor r.code.entry offset).mapError .search := by
  unfold sighted Source.ready
  simp only [bind_assoc, pure_bind]
  refine bind_congr_ok fun _ _ => bind_congr_ok fun c _ => bind_congr_ok fun p _ => bind_congr_ok fun code _ => ?_
  cases p.find code.image.memory code.entry c.scanLimit.toNat <;> rfl

end Invocation

/-! ## Settings in commands -/

section Anchors

variable (i : Invocation) {lib : Libraries} {v : FileView} {f : Failure} (e : PatternError)

theorem ready_ne_anchor {s : Source} (h : s.ready lib v = .error f) : f ≠ .anchor e ∧ f ≠ .build (.invalidAnchor e) := by
  obtain ⟨_, rfl⟩ | ⟨_, rfl⟩ | ⟨_, rfl⟩ | ⟨_, rfl⟩ | ⟨_, rfl⟩ := Source.ready_eq_error h <;> simp

theorem built_ne_anchor (h : i.built lib v = .error (.fail f)) : f ≠ .anchor e ∧ f ≠ .build (.invalidAnchor e) := by
  rw [Invocation.built_eq] at h
  obtain h | ⟨r, -, h⟩ := bind_eq_error.1 h
  · obtain ⟨g, hg, heq⟩ := mapError_eq_error.1 h
    cases heq
    exact ready_ne_anchor e hg
  · obtain ⟨x, hx, heq⟩ := mapError_eq_error.1 h
    cases x with
    | trap t => cases heq
    | fail x =>
      cases heq
      refine ⟨by simp, fun heq => ?_⟩
      cases heq
      exact Recipe.build_ne_invalidAnchor e hx

theorem sighted_ne_anchor (h : i.sighted lib v = .error f) : f ≠ .anchor e ∧ f ≠ .build (.invalidAnchor e) := by
  rw [Invocation.sighted_eq] at h
  obtain h | ⟨r, -, h⟩ := bind_eq_error.1 h
  · exact ready_ne_anchor e h
  · obtain ⟨x, -, rfl⟩ := mapError_eq_error.1 h
    simp

/-- **No anchor is refused behind the settings**, by either command. -/
theorem verdict_ne_anchor (lib : Libraries) (v : FileView) (colours : Bool) :
    (report lib i v colours).verdict ≠ .error (.fail (.anchor e)) ∧
      (report lib i v colours).verdict ≠ .error (.fail (.build (.invalidAnchor e))) := by
  cases hi : i.action with
  | build =>
    cases h : i.built lib v with
    | ok t =>
      obtain ⟨log, hreport⟩ := report_build_of_ok colours hi h
      simp [hreport]
    | error x =>
      obtain ⟨log, hreport⟩ := report_build_of_error colours hi h
      cases x with
      | trap t => simp [hreport]
      | fail f => simpa [hreport] using built_ne_anchor i e h
  | scan =>
    cases h : i.sighted lib v with
    | ok found =>
      obtain ⟨log, hreport⟩ := report_scan_of_ok colours hi h
      simp [hreport]
    | error f =>
      obtain ⟨log, hreport⟩ := report_scan_of_error colours hi h
      simpa [hreport] using sighted_ne_anchor i e h

end Anchors

/-- **Settings are checked once and for all.**  Each field is the option's value, or else the file's, or else the default,
and the file alone is as valid as the outcome: the anchor's words are bytes, one at least, and the limit is not zero.  So
with any number of handlers these settings make a recipe with that anchor, no command fails for an anchor behind them,
and code is always named where the options are consistent. -/
theorem Source.settings_sound (s : Source) (lib : Libraries) (v : FileView) :
    (∀ c, s.settings lib v = .ok c →
      (∃ d, s.FileTells v d ∧ (∀ d', s.FileTells v d' → d' = d) ∧ d.settings.validate = .ok () ∧
        c.anchor = s.anchor.getD (d.anchor.getD Pattern.preamble.hex) ∧
        c.scanLimit = s.scanLimit.getD (d.scanLimit.getD Pattern.defaultLimit) ∧
        c.branchCount = d.branchCount.getD 3) ∧
      c.validate = .ok () ∧ Text.words c.anchor.toList ≠ [] ∧
      (∀ w ∈ Text.words c.anchor.toList, Pattern.IsByteWord w) ∧ 0 < c.scanLimit ∧
      ∃ p, c.pattern = .ok p ∧ p.bytes ≠ [] ∧ ∀ count : Option UInt64,
        Settings.recipe ⟨c.anchor, c.scanLimit, count.getD c.branchCount⟩ =
          .ok ⟨p, c.scanLimit.toNat, (count.getD c.branchCount).toNat⟩) ∧
    (∀ (i : Invocation) (colours : Bool), i.source = s → ∀ e,
      (report lib i v colours).verdict ≠ .error (.fail (.anchor e)) ∧
        (report lib i v colours).verdict ≠ .error (.fail (.build (.invalidAnchor e)))) ∧
    (s.validate v = .ok () → ∀ told, ((s.opened lib v).run.run told).1 ≠ .error (.fail .noCode)) := by
  refine ⟨fun c hc => ?_, fun i colours _ e => verdict_ne_anchor i e lib v colours, fun hvalid told h => ?_⟩
  · obtain ⟨t, ht, rfl, hvalid⟩ := settings_eq_ok_iff.1 hc
    obtain ⟨d, htells, rfl, hfile⟩ := fileSettings_eq_ok ht
    obtain ⟨hne, hwords, hlimit⟩ := Settings.validate_ok_iff.1 hvalid
    obtain ⟨p, hp, hbytes⟩ := pattern_of_settings hc
    refine ⟨⟨d, htells, fun d' h' => h'.unique htells, hfile, rfl, rfl, rfl⟩, hvalid, hne, hwords, hlimit, p, hp, hbytes, ?_⟩
    exact fun count => Settings.recipe_eq_ok hp
  · rw [Yields.eq_of_run (s.yieldsSafely_opened lib v)] at h
    obtain ⟨f, hf, heq⟩ := mapError_eq_error.1 h
    cases heq
    obtain ⟨-, hnone⟩ | ⟨e, he⟩ | ⟨x, hx⟩ := located_eq_error hf
    · exact code?_of_validate hvalid hnone
    · cases he
    · cases hx

/-- Files in one directory: a dump with one branch behind its anchor, and settings with a field of another name. -/
def smallTree : Files :=
  ⟨[(["d.bin"], .file ⟨#[0x90, 0xcc, 0x75, 0x02]⟩),
    (["c.json"], .file "\x7b\"scan_limit\": 7, \"x\": [1, null], \"anchor\": \"0xCC\"\x7d".toUTF8)]⟩

def smallSource : Source := { raw := some "d.bin", base := some ⟨0x1000⟩, config := some "c.json", scanLimit := some 9 }

/-- The limit is the option's and not the file's, the anchor the file's, and the number of handlers neither's. -/
theorem Source.settings_sound_smallSource :
    smallSource.settings .atHand smallTree.view = .ok ⟨"0xCC", 9, 3⟩ ∧
    (∃ d, smallSource.FileTells smallTree.view d ∧ d.anchor.getD Pattern.preamble.hex = "0xCC") ∧
    (∀ w ∈ Text.words "0xCC".toList, Pattern.IsByteWord w) ∧
    (∃ p, p.bytes ≠ [] ∧ Settings.recipe ⟨"0xCC", 9, 1⟩ = .ok ⟨p, 9, 1⟩) ∧
    (∀ e, (report .atHand ⟨.build, smallSource, none, none, "info", false, false⟩ smallTree.view false).verdict ≠
      .error (.fail (.anchor e))) ∧
    smallSource.validate smallTree.view = .ok () ∧
    ((smallSource.opened .atHand smallTree.view).run.run []).1 ≠ .error (.fail .noCode) := by
  obtain ⟨hsettings, hverdict, hcode⟩ := Source.settings_sound smallSource .atHand smallTree.view
  have hc : smallSource.settings .atHand smallTree.view = .ok ⟨"0xCC", 9, 3⟩ := eq_ok_of_toOption (by decide +kernel)
  have hvalid : smallSource.validate smallTree.view = .ok () := eq_ok_of_toOption (by decide +kernel)
  obtain ⟨⟨d, htells, -, -, hanchor, -⟩, -, -, hwords, -, p, -, hp, hrecipe⟩ := hsettings _ hc
  exact ⟨hc, ⟨d, htells, hanchor.symm⟩, hwords, ⟨p, hp, hrecipe (some 1)⟩, fun e => (hverdict _ false rfl e).1, hvalid,
    hcode hvalid []⟩

end Command
end BranchChain
