import BranchChain.Proofs.Cutting
import BranchChain.Proofs.Telling
/-!
# Proofs.Loading — settings written and loaded

Settings are written as an object of some of their fields, in any order (`Settings.jsonOf`).  Its tokens are read field by
field, each put into a draft that had nothing there (`Settings.reads_entries`), so what is read is the fields written and
the defaults of the others (`Settings.ofJson_written`).  Loading adds the check and nothing else (`Settings.load_written`).
-/
namespace BranchChain

/-! ## Tokens of an object -/

namespace Json

theorem map_token_intercalate (sss : List (List Span)) :
    ([mark .comma ','].intercalate sss).map Span.token = separated (sss.map (·.map Span.token)) := by
  cases sss with
  | nil => rfl
  | cons ss sss =>
    rw [intercalate_eq_flatMap, List.map_append, List.map_flatMap, List.map_cons, separated, List.flatMap_map]
    rfl

theorem map_token_writtenFields (fs : List (String × Json)) :
    (writtenFields fs).map (·.map Span.token) = fs.map fun f => entryTokens (f.1, (written f.2).map Span.token) := by
  induction fs with
  | nil => rfl
  | cons f fs ih =>
    obtain ⟨k, j⟩ := f
    rw [writtenFields, List.map_cons, List.map_cons, ih]
    rfl

/-- **The tokens of a written object** are its entries between braces. -/
theorem map_token_written_obj (fs : List (String × Json)) :
    (written (.obj fs)).map Span.token = objectTokens (fs.map fun f => (f.1, (written f.2).map Span.token)) := by
  rw [written, objectTokens, List.map_append, List.map_cons, map_token_intercalate, map_token_writtenFields, List.map_map]
  rfl

end Json

namespace Settings

open Json (Token ReadFault entryTokens objectTokens separated)

variable {s : Settings} {fs : List Field}

/-! ## Settings in part -/

def value (s : Settings) : Field → Json
  | .anchor => .str s.anchor
  | .scanLimit => .int s.scanLimit.toNat
  | .branchCount => .int s.branchCount.toNat

/-- **Some fields of settings, in an order of their own.** -/
def jsonOf (s : Settings) (fs : List Field) : Json := .obj (fs.map fun f => (f.name, s.value f))

theorem json_eq (s : Settings) : s.json = s.jsonOf [.anchor, .scanLimit, .branchCount] := rfl

def token (s : Settings) : Field → Token
  | .anchor => .string (some s.anchor)
  | .scanLimit => .number (.word s.scanLimit)
  | .branchCount => .number (.word s.branchCount)

theorem map_token_value (s : Settings) (f : Field) : (Json.written (s.value f)).map Json.Span.token = [s.token f] := by
  cases f with
  | anchor => rfl
  | scanLimit => exact congrArg (fun n => [Token.number n]) (Json.numberOf_word s.scanLimit)
  | branchCount => exact congrArg (fun n => [Token.number n]) (Json.numberOf_word s.branchCount)

/-- **The settings that have some fields in common with others**, and the defaults elsewhere. -/
def partOf (s : Settings) (fs : List Field) : Settings :=
  let d : Settings := {}
  ⟨if .anchor ∈ fs then s.anchor else d.anchor, if .scanLimit ∈ fs then s.scanLimit else d.scanLimit,
    if .branchCount ∈ fs then s.branchCount else d.branchCount⟩

/-! ## Drafts that are filled -/

namespace Draft

variable {d : Draft} {f g : Field}

/-- A draft with a field of settings put in. -/
def take (s : Settings) (d : Draft) : Field → Draft
  | .anchor => ⟨some s.anchor, d.scanLimit, d.branchCount⟩
  | .scanLimit => ⟨d.anchor, some s.scanLimit, d.branchCount⟩
  | .branchCount => ⟨d.anchor, d.scanLimit, some s.branchCount⟩

theorem put_token (s : Settings) (d : Draft) (f : Field) : d.put f (s.token f) = .ok (d.take s f) := by
  cases f <;> rfl

theorem token?_take_self (s : Settings) (d : Draft) (f : Field) : (d.take s f).token? f = some (s.token f) := by
  cases f <;> rfl

theorem token?_take_of_ne (h : g ≠ f) : (d.take s f).token? g = d.token? g := (put_eq_ok (put_token s d f)).2.2 g h

theorem token?_foldl_take (f : Field) : ∀ (fs : List Field) (d : Draft),
    (fs.foldl (take s) d).token? f = if f ∈ fs then some (s.token f) else d.token? f
  | [], d => rfl
  | g :: fs, d => by
    rw [List.foldl_cons, token?_foldl_take f fs (d.take s g)]
    by_cases hfg : f = g
    · subst hfg
      rw [token?_take_self, if_pos List.mem_cons_self, ite_self]
    · rw [token?_take_of_ne hfg]
      simp [hfg]

/-- **A draft filled with some fields stands for these fields and the defaults.** -/
theorem settings_foldl_take (s : Settings) (fs : List Field) : (fs.foldl (take s) {}).settings = s.partOf fs := by
  have hdraft : fs.foldl (take s) {} = ⟨if .anchor ∈ fs then some s.anchor else none,
      if .scanLimit ∈ fs then some s.scanLimit else none, if .branchCount ∈ fs then some s.branchCount else none⟩ := by
    -- a draft is what it has of the fields, and each was put in or never was
    refine ext_token? fun f => ?_
    rw [token?_foldl_take, token?_empty]
    cases f <;> simp only [token?] <;> split <;> rfl
  have hgetD {α : Type} (p : Prop) [Decidable p] (a b : α) : (if p then some a else none).getD b = if p then a else b :=
    apply_ite (·.getD b) p (some a) none
  simp only [hdraft, settings, partOf, hgetD]

end Draft

/-! ## Reading what was written -/

section Reading

variable {d d' : Draft} {f : Field} {rest : List Token} {x : Draft × Place}

theorem readKey_name (h : d.token? f = none) :
    readKey d (.string (some f.name)) = .ok (d, .colon (some f)) := by
  have hhas : d.has f = false := by
    rw [Draft.has_eq, h]
    rfl
  rw [readKey, Field.ofName?_eq_some_iff.2 rfl]
  exact if_neg (by rw [hhas]; decide)

/-- **A written field is put into the draft** that has none, where a key may stand. -/
theorem reads_field (hx : ∀ t : Token, t ≠ .braceClose → step x t = readKey d t) (h : d.token? f = none)
    (hrest : Reads (d.take s f, .entryEnd) rest d') : Reads x (entryTokens (f.name, [s.token f]) ++ rest) d' := by
  have hkey : step x (.string (some f.name)) = .ok (d, .colon (some f)) := (hx _ (by simp)).trans (readKey_name h)
  have hput : step (d, .value f) (s.token f) = .ok (d.take s f, .entryEnd) := by
    show (d.put f (s.token f)).map _ = _
    rw [Draft.put_token]
    rfl
  exact reads_cons.2 ⟨_, hkey, reads_cons.2 ⟨_, rfl, reads_cons.2 ⟨_, hput, hrest⟩⟩⟩

theorem reads_fields : ∀ (fs : List Field) (d : Draft), fs.Nodup → (∀ f ∈ fs, d.token? f = none) →
    Reads (d, .entryEnd) ((fs.map fun f => entryTokens (f.name, [s.token f])).flatMap (.comma :: ·) ++ [.braceClose])
      (fs.foldl (Draft.take s) d)
  | [], d, _, _ => reads_cons.2 ⟨(d, .done), rfl, rfl⟩
  | f :: fs, d, hnodup, hfresh => by
    obtain ⟨hf, hfs⟩ := List.nodup_cons.1 hnodup
    obtain ⟨hnone, hnones⟩ := List.forall_mem_cons.1 hfresh
    have hrest := reads_fields fs (d.take s f) hfs fun g hg => by
      rw [Draft.token?_take_of_ne (ne_of_mem_of_not_mem hg hf), hnones g hg]
    rw [List.map_cons, List.flatMap_cons, List.append_assoc]
    exact reads_cons.2 ⟨(d, .key), rfl, reads_field (fun _ _ => rfl) hnone hrest⟩

/-- **An object of fields is read as the draft they fill.** -/
theorem reads_object (s : Settings) (hnodup : fs.Nodup) :
    Reads ({}, .start) (objectTokens (fs.map fun f => (f.name, [s.token f]))) (fs.foldl (Draft.take s) {}) := by
  refine reads_cons.2 ⟨({}, .firstKey), rfl, ?_⟩
  show Reads _ (separated ((fs.map fun f => (f.name, [s.token f])).map entryTokens) ++ [.braceClose]) _
  rw [List.map_map]
  cases fs with
  | nil => exact reads_cons.2 ⟨({}, .done), rfl, rfl⟩
  | cons f fs =>
    obtain ⟨hf, hfs⟩ := List.nodup_cons.1 hnodup
    have hrest := reads_fields (s := s) fs (Draft.take s {} f) hfs fun g hg => by
      rw [Draft.token?_take_of_ne (ne_of_mem_of_not_mem hg hf), Draft.token?_empty]
    rw [List.map_cons, separated, List.append_assoc]
    refine reads_field (fun t ht => ?_) (Draft.token?_empty f) hrest
    cases t <;> first | rfl | exact absurd rfl ht

end Reading

/-- **The writers of JSON.** -/
def IsWriter (write : Json → String) : Prop := write = Json.compact ∨ write = Json.pretty

theorem tokens_of_isWriter {write : Json → String} (h : IsWriter write) (j : Json) :
    Json.tokens (write j).toList = (Json.written j).map Json.Span.token := by
  obtain rfl | rfl := h
  · rw [Json.tokens_eq, Json.spans_compact]
  · rw [Json.tokens_eq, Json.spans_pretty]

theorem ofJson_written {write : Json → String} (hwrite : IsWriter write) (s : Settings) (hnodup : fs.Nodup) :
    ofJson (write (s.jsonOf fs)) = .ok (s.partOf fs) := by
  have htokens : Json.tokens (write (s.jsonOf fs)).toList = objectTokens (fs.map fun f => (f.name, [s.token f])) := by
    rw [tokens_of_isWriter hwrite, jsonOf, Json.map_token_written_obj, List.map_map]
    simp only [Function.comp_def, map_token_value]
  have hreads : (objectTokens (fs.map fun f => (f.name, [s.token f]))).foldlM step ({}, .start) = .ok (_, .done) :=
    reads_object s hnodup
  rw [ofJson, htokens, ofTokens, hreads, ← Draft.settings_foldl_take]
  rfl

/-! ## Loading what was written -/

theorem load_of_ofJson (describe : String → ReadFault → String) {text : String} {c : Settings} (h : ofJson text = .ok c) :
    load describe (.ok text.toUTF8) = (c.validate.mapError .invalid).map fun _ => c := by
  have htext : String.fromUTF8? text.toUTF8 = some text := dif_pos text.isValidUTF8
  simp only [load, Except.mapError, bind_ok, htext, h]
  cases c.validate <;> rfl

theorem partOf_all (s : Settings) : s.partOf [.anchor, .scanLimit, .branchCount] = s := rfl

/-- **Settings written are settings loaded.**  Whatever settings some fields are taken from, and in whatever order they are
written, their file is loaded as these fields and the defaults of the others if that is valid.  If it is not, loading fails
with what the check says.  So valid settings are loaded as they were written. -/
theorem load_written (s : Settings) (fs : List Field) (hnodup : fs.Nodup) {write : Json → String} (hwrite : IsWriter write)
    (describe : String → ReadFault → String) :
    ((s.partOf fs).validate = .ok () → load describe (.ok (write (s.jsonOf fs)).toUTF8) = .ok (s.partOf fs)) ∧
    (∀ e, (s.partOf fs).validate = .error e →
      load describe (.ok (write (s.jsonOf fs)).toUTF8) = .error (.invalid e) ∧
        (LoadError.invalid e).message = e.message) ∧
    (s.validate = .ok () → load describe (.ok (write s.json).toUTF8) = .ok s) := by
  have hpart := load_of_ofJson describe (ofJson_written hwrite s hnodup)
  have hall := load_of_ofJson describe (ofJson_written hwrite s (show [Field.anchor, .scanLimit, .branchCount].Nodup by decide))
  rw [← json_eq, partOf_all] at hall
  refine ⟨fun hvalid => ?_, fun e hinvalid => ⟨?_, rfl⟩, fun hvalid => ?_⟩
  · rw [hpart, hvalid]
    rfl
  · rw [hpart, hinvalid]
    rfl
  · rw [hall, hvalid]
    rfl

/-- Settings with a control character and a wide blank in the anchor, no limit, and as many handlers as can be. -/
def oddSettings : Settings := ⟨"cc\x0b\u2003\x0990", 0, 0xffffffffffffffff⟩

/-- Without the limit the settings are loaded, from the last field on, and with it they are not. -/
theorem load_written_oddSettings :
    (oddSettings.jsonOf [.branchCount, .anchor]).compact =
      "\x7b\"branch_count\":18446744073709551615,\"anchor\":\"cc\\u000b\u2003\\t90\"\x7d" ∧
    load (fun _ _ => "") (.ok (oddSettings.jsonOf [.branchCount, .anchor]).compact.toUTF8) =
      .ok ⟨"cc\x0b\u2003\x0990", Pattern.defaultLimit, 0xffffffffffffffff⟩ ∧
    load (fun _ _ => "") (.ok (oddSettings.jsonOf [.branchCount, .scanLimit, .anchor]).pretty.toUTF8) =
      .error (.invalid .zeroLimit) ∧
    (LoadError.invalid .zeroLimit).message = "scan_limit must be greater than 0" ∧
    load (fun _ _ => "") (.ok (Json.pretty (json {})).toUTF8) = .ok {} := by
  obtain ⟨hvalid, -, -⟩ := load_written oddSettings [.branchCount, .anchor] (by decide) (.inl rfl) fun _ _ => ""
  obtain ⟨-, hinvalid, -⟩ :=
    load_written oddSettings [.branchCount, .scanLimit, .anchor] (by decide) (.inr rfl) fun _ _ => ""
  obtain ⟨-, -, hdefault⟩ := load_written {} [] (by decide) (.inr rfl) fun _ _ => ""
  obtain ⟨hload, hmessage⟩ := hinvalid .zeroLimit (by decide +kernel)
  exact ⟨by decide +kernel, hvalid (eq_ok_of_toOption (by decide +kernel)), hload, hmessage,
    hdefault (eq_ok_of_toOption (by decide +kernel))⟩

end Settings
end BranchChain
