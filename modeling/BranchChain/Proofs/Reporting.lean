import BranchChain.Proofs.Cutting
import BranchChain.Table
import Std.Data.String.ToInt
/-!
# Proofs.Reporting — tables read from their reports

A value is rebuilt from its tokens one by one, with the arrays and objects kept that are open around the next of them
(`Json.rebuild`).  Behind the tokens of a value stands that value, whatever is open (`Json.rebuilds_written`), so a text
gives back the value it was written from (`Json.read?_pretty`).  A report is the text of an object that shows each number
as it is and each address as a text that is read as it, and so a table is recovered from its report
(`Table.jsonText_recovers`).
-/
namespace BranchChain
namespace Json

/-! ## Values rebuilt -/

/-- What is open around a value, with what stands in front of the value, last first. -/
inductive Around where
  | array (before : List Json)
  | object (before : List (String × Json)) (key : String)

/-- Where a reader of values stands. -/
inductive Stand where
  | value
  | firstItem
  | firstKey
  | key (before : List (String × Json))
  | colon
  | behind (j : Json)

abbrev Rebuilding := Stand × List Around

def rebuildValue (os : List Around) (s : Span) : Option Rebuilding :=
  match s.token with
  | .null => some (.behind .null, os)
  | .bool b => some (.behind (.bool b), os)
  | .number _ => (String.ofList s.text).toInt?.map fun n => (.behind (.int n), os)
  | .string (some s) => some (.behind (.str s), os)
  | .bracketOpen => some (.firstItem, os)
  | .braceOpen => some (.firstKey, os)
  | _ => none

def rebuildKey (before : List (String × Json)) (os : List Around) (s : Span) : Option Rebuilding :=
  match s.token with
  | .string (some k) => some (.colon, .object before k :: os)
  | _ => none

/-- **Rebuilds a value by a token.** -/
def rebuild (x : Rebuilding) (s : Span) : Option Rebuilding :=
  match x, s.token with
  | (.value, os), _ => rebuildValue os s
  | (.firstItem, os), .bracketClose => some (.behind (.arr []), os)
  | (.firstItem, os), _ => rebuildValue (.array [] :: os) s
  | (.firstKey, os), .braceClose => some (.behind (.obj []), os)
  | (.firstKey, os), _ => rebuildKey [] os s
  | (.key before, os), _ => rebuildKey before os s
  | (.colon, os), .colon => some (.value, os)
  | (.behind j, .array before :: os), .comma => some (.value, .array (j :: before) :: os)
  | (.behind j, .array before :: os), .bracketClose => some (.behind (.arr (j :: before).reverse), os)
  | (.behind j, .object before k :: os), .comma => some (.key ((k, j) :: before), os)
  | (.behind j, .object before k :: os), .braceClose => some (.behind (.obj ((k, j) :: before).reverse), os)
  | _, _ => none

/-- **The value a text holds.** -/
def read? (text : String) : Option Json :=
  match (spans text.toList).foldlM rebuild (.value, []) with
  | some (.behind j, []) => some j
  | _ => none

def Rebuilds (x : Rebuilding) (ss : List Span) (y : Rebuilding) : Prop := ss.foldlM rebuild x = some y

section Rebuilds

variable {x y z : Rebuilding} {s : Span} {ss ss' : List Span} {os : List Around}

theorem Rebuilds.cons (h : rebuild x s = some y) (h' : Rebuilds y ss z) : Rebuilds x (s :: ss) z := by
  rw [Rebuilds, List.foldlM_cons, h]
  exact h'

theorem Rebuilds.single (h : rebuild x s = some y) : Rebuilds x [s] y := .cons h rfl

theorem Rebuilds.append (h : Rebuilds x ss y) (h' : Rebuilds y ss' z) : Rebuilds x (ss ++ ss') z := by
  rw [Rebuilds, List.foldlM_append, h]
  exact h'

theorem exists_written_eq_cons (j : Json) : ∃ s ss, written j = s :: ss ∧ s.token ≠ .bracketClose := by
  cases j <;> exact ⟨_, _, rfl, by simp [mark]⟩

theorem Rebuilds.firstItem {j : Json} (h : Rebuilds (.value, .array [] :: os) (written j ++ ss) y) :
    Rebuilds (.firstItem, os) (written j ++ ss) y := by
  obtain ⟨s, ss', hw, hs⟩ := exists_written_eq_cons j
  -- only a closing bracket is read differently where the first item may stand
  have hstep : rebuild (.firstItem, os) s = rebuild (.value, .array [] :: os) s := by
    unfold rebuild
    split <;> simp_all
  rw [hw, List.cons_append, Rebuilds, List.foldlM_cons] at h ⊢
  rw [hstep, h]

mutual

/-- **Behind the tokens of a value stands that value.** -/
theorem rebuilds_written : ∀ (j : Json) (os : List Around), Rebuilds (.value, os) (written j) (.behind j, os)
  | .null, os => rfl
  | .bool b, os => rfl
  | .str s, os => rfl
  | .int n, os => by
    refine .single ?_
    simp only [rebuild, rebuildValue, String.ofList_toList, Text.signed_eq_repr, Int.toInt?_repr, Option.map_some]
  | .arr [], os => rfl
  | .obj [], os => rfl
  | .arr (j :: js), os => by
    have hitems := rebuilds_items js [] j os
    rw [written, writtenItems, intercalate_eq_flatMap, List.cons_append, List.append_assoc]
    exact .cons rfl (.firstItem ((rebuilds_written j _).append hitems))
  | .obj ((k, j) :: fs), os => by
    have hfields := rebuilds_fields fs [] k j os
    rw [written, writtenFields, intercalate_eq_flatMap, List.cons_append, List.append_assoc]
    exact .cons rfl (.cons rfl (.cons rfl ((rebuilds_written j _).append hfields)))

/-- Behind an item stand the others, each behind a comma, and the closing bracket. -/
theorem rebuilds_items : ∀ (js before : List Json) (j : Json) (os : List Around),
    Rebuilds (.behind j, .array before :: os) ((writtenItems js).flatMap (mark .comma ',' :: ·) ++ [mark .bracketClose ']'])
      (.behind (.arr (before.reverse ++ j :: js)), os)
  | [], before, j, os => .single (by simp [rebuild, mark])
  | j' :: js, before, j, os => by
    have hitems := rebuilds_items js (j :: before) j' os
    rw [List.reverse_cons, List.append_assoc] at hitems
    rw [writtenItems, List.flatMap_cons, List.cons_append, List.cons_append, List.append_assoc]
    exact .cons rfl ((rebuilds_written j' _).append hitems)

theorem rebuilds_fields : ∀ (fs before : List (String × Json)) (k : String) (j : Json) (os : List Around),
    Rebuilds (.behind j, .object before k :: os)
      ((writtenFields fs).flatMap (mark .comma ',' :: ·) ++ [mark .braceClose '\x7d'])
      (.behind (.obj (before.reverse ++ (k, j) :: fs)), os)
  | [], before, k, j, os => .single (by simp [rebuild, mark])
  | (k', j') :: fs, before, k, j, os => by
    have hfields := rebuilds_fields fs ((k, j) :: before) k' j' os
    rw [List.reverse_cons, List.append_assoc] at hfields
    rw [writtenFields, List.flatMap_cons, List.cons_append, List.cons_append, List.append_assoc]
    exact .cons rfl (.cons rfl (.cons rfl ((rebuilds_written j' _).append hfields)))

end

end Rebuilds

/-- **A value is read from its text.** -/
theorem read?_pretty (j : Json) : read? j.pretty = some j := by
  have h : (written j).foldlM rebuild (.value, []) = some (.behind j, []) := rebuilds_written j []
  rw [read?, spans_pretty, h]

example : (read? "[true, null]").isSome = true ∧ (read? "[true, null").isSome = false ∧
    (read? "[true, null,]").isSome = false := by
  decide +kernel

/-! ## Values of one kind -/

def field? (k : String) : Json → Option Json
  | .obj fs => fs.lookup k
  | _ => none

def natural? : Json → Option Nat
  | .int n => n.toNat?
  | _ => none

def word? (j : Json) : Option UInt64 := j.natural?.bind fun n => if n < UInt64.size then some (.ofNat n) else none

def signed? : Json → Option Int64
  | .int n => if (Int64.ofInt n).toInt = n then some (.ofInt n) else none
  | _ => none

def address? : Json → Option Address
  | .str s => (Address.ofText s).toOption
  | _ => none

def form? : Json → Option Form
  | .str s => [Form.short, Form.near].find? (·.name == s)
  | _ => none

theorem natural?_int (n : Nat) : natural? (.int n) = some n := rfl

theorem word?_int (w : UInt64) : word? (.int w.toNat) = some w := by
  rw [word?, natural?_int, Option.bind_some, if_pos w.toNat_lt, UInt64.ofNat_toNat]

theorem signed?_int (d : Int64) : signed? (.int d.toInt) = some d := by
  rw [signed?, Int64.ofInt_toInt, if_pos rfl]

theorem address?_str {s : String} {a : Address} (h : Address.ofText s = .ok a) : address? (.str s) = some a := by
  rw [address?, h]
  rfl

theorem form?_name (f : Form) : form? (.str f.name) = some f := by
  cases f <;> decide

end Json

/-! ## Reports -/

namespace Slot

open Json (field?)

/-- **What the object of a slot shows**: numbers and the form by their values, and the target by a text that is read as
it. -/
def Shown (s : Slot) (j : Json) : Prop :=
  field? "index" j = some (.int s.index) ∧
  (∃ a, field? "target" j = some (.str a) ∧ Address.ofText a = .ok s.target) ∧
  field? "site_offset" j = some (.int s.siteOffset.toNat) ∧
  field? "form" j = some (.str s.form.name) ∧
  field? "displacement" j = some (.int s.displacement.toInt)

theorem shown_json (s : Slot) : s.Shown s.json := ⟨rfl, ⟨_, rfl, s.target.ofText_short⟩, rfl, rfl, rfl⟩

/-- **The slot an object shows.** -/
def ofJson? (j : Json) : Option Slot := do
  let index ← (field? "index" j).bind Json.natural?
  let target ← (field? "target" j).bind Json.address?
  let siteOffset ← (field? "site_offset" j).bind Json.word?
  let form ← (field? "form" j).bind Json.form?
  let displacement ← (field? "displacement" j).bind Json.signed?
  return ⟨index, target, siteOffset, form, displacement⟩

theorem Shown.ofJson?_eq {s : Slot} {j : Json} (h : s.Shown j) : ofJson? j = some s := by
  obtain ⟨hindex, ⟨a, htarget, ha⟩, hsite, hform, hdisplacement⟩ := h
  simp only [ofJson?, hindex, htarget, hsite, hform, hdisplacement, Option.bind_some, Json.natural?_int,
    Json.address?_str ha, Json.word?_int, Json.form?_name, Json.signed?_int]
  rfl

end Slot

namespace Table

open Json (field?)

/-- **What the object of a table shows**: one object per slot, in order. -/
def Shown (t : Table) (j : Json) : Prop :=
  (∃ a, field? "entry" j = some (.str a) ∧ Address.ofText a = .ok t.entry) ∧
  field? "preamble_offset" j = some (.int t.preambleOffset.toNat) ∧
  ∃ js, field? "handlers" j = some (.arr js) ∧ List.Forall₂ Slot.Shown t.slots js

theorem shown_json (t : Table) : t.Shown t.json := by
  refine ⟨⟨_, rfl, t.entry.ofText_short⟩, rfl, _, rfl, ?_⟩
  rw [List.forall₂_map_right_iff, List.forall₂_same]
  exact fun s _ => s.shown_json

def ofJson? (j : Json) : Option Table := do
  let entry ← (field? "entry" j).bind Json.address?
  let preambleOffset ← (field? "preamble_offset" j).bind Json.word?
  match field? "handlers" j with
  | some (.arr js) => return ⟨entry, preambleOffset, ← js.mapM Slot.ofJson?⟩
  | _ => none

theorem Shown.ofJson?_eq {t : Table} {j : Json} (h : t.Shown j) : ofJson? j = some t := by
  have hslots {ss : List Slot} {js : List Json} (h : List.Forall₂ Slot.Shown ss js) : js.mapM Slot.ofJson? = some ss := by
    induction h with
    | nil => rfl
    | cons hs _ ih =>
      rw [List.mapM_cons, hs.ofJson?_eq, ih]
      rfl
  obtain ⟨⟨a, hentry, ha⟩, hoffset, js, hhandlers, hjs⟩ := h
  simp only [ofJson?, hentry, hoffset, hhandlers, hslots hjs, Option.bind_some, Json.address?_str ha, Json.word?_int]
  rfl

/-- **The table a text shows.** -/
def ofText? (text : String) : Option Table := (Json.read? text).bind ofJson?

theorem ofText?_jsonText (t : Table) : ofText? t.jsonText = some t := by
  rw [ofText?, jsonText, Json.read?_pretty, Option.bind_some, t.shown_json.ofJson?_eq]

/-- **A report loses nothing.**  It is cut into the tokens of one value and nothing else, and the value that is read from it
shows the table: one object per slot in order, each number as it is, and each address as a text that is read as it.  So the
table is recovered from its report, and no other table has the same one. -/
theorem jsonText_recovers (t : Table) :
    Json.spans t.jsonText.toList = Json.written t.json ∧
    (∃ j, Json.read? t.jsonText = some j ∧ t.Shown j) ∧
    ofText? t.jsonText = some t ∧
    ∀ t' : Table, t'.jsonText = t.jsonText → t' = t := by
  refine ⟨Json.spans_pretty t.json, ⟨t.json, Json.read?_pretty t.json, t.shown_json⟩, ofText?_jsonText t, fun t' h => ?_⟩
  have hsame : some t' = some t := by rw [← ofText?_jsonText t', h, ofText?_jsonText]
  exact Option.some.inj hsame

end Table
end BranchChain
