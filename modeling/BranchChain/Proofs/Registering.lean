import BranchChain.Proofs.Naming
import BranchChain.Symbol.Registry
/-!
# Proofs.Registering — names given and taken back

A registry in use may be copied, and the copy put back later.  What it holds then is told by the requests alone: those
registrations hold behind which no restore comes before a save (`Registry.holding`).  Behind any requests a registry is
what these registrations, one by one, make of an empty one (`Registry.live_afterAll`); so the last of them to give a name
counts, and no name counts twice.
-/
namespace BranchChain
namespace Registry

/-! ## Registrations -/

def enterAll (r : Registry) (entries : List (String × Address)) : Registry :=
  entries.foldl (fun r e => r.register e.1 e.2) r

/-- **The address that registrations give a name**: that of the last of them. -/
def lastOf? (entries : List (String × Address)) (name : String) : Option Address := entries.reverse.lookup name

theorem lastOf?_cons (other : String) (a : Address) (entries : List (String × Address)) (name : String) :
    lastOf? ((other, a) :: entries) name = (lastOf? entries name).or (if other = name then some a else none) := by
  unfold lastOf?
  rw [List.reverse_cons, List.lookup_append, List.lookup_cons, List.lookup_nil]
  by_cases h : other = name
  · simp [h]
  · simp [h, beq_eq_false_iff_ne.2 (Ne.symm h)]

theorem lastOf?_isSome_iff (entries : List (String × Address)) (name : String) :
    (lastOf? entries name).isSome ↔ name ∈ entries.map Prod.fst := by
  unfold lastOf?
  rw [List.lookup_isSome_iff, List.mem_map]
  constructor
  · rintro ⟨e, he, hname⟩
    exact ⟨e, List.mem_reverse.1 he, (beq_iff_eq.1 hname).symm⟩
  · rintro ⟨e, he, hname⟩
    exact ⟨e, List.mem_reverse.2 he, beq_iff_eq.2 hname.symm⟩

theorem find?_empty (name : String) : empty.find? name = none := Std.HashMap.getElem?_empty

theorem find?_enterAll : ∀ (entries : List (String × Address)) (r : Registry) (name : String),
    (r.enterAll entries).find? name = (lastOf? entries name).or (r.find? name)
  | [], r, name => rfl
  | (other, a) :: entries, r, name => by
    have hrest := find?_enterAll entries (r.register other a) name
    rw [enterAll, List.foldl_cons, ← enterAll, hrest, lastOf?_cons, find?_register, Option.or_assoc]
    by_cases h : other = name
    · simp [h]
    · simp [h]

theorem find?_enterAll_empty (entries : List (String × Address)) (name : String) :
    (empty.enterAll entries).find? name = lastOf? entries name := by
  rw [find?_enterAll, find?_empty, Option.or_none]

theorem size_enterAll_empty (entries : List (String × Address)) :
    (empty.enterAll entries).size = (entries.map Prod.fst).dedup.length := by
  refine size_eq_length_dedup fun name => ?_
  have hfind : (empty.enterAll entries).symbols[name]? = lastOf? entries name := find?_enterAll_empty entries name
  rw [hfind]
  exact lastOf?_isSome_iff entries name

/-! ## Requests -/

/-- **What is asked of a registry** that has one copy of it put aside. -/
inductive Request where
  | register (name : String) (a : Address)
  | registerFunction (name : String) (pointer : UInt64)
  | resolve (name : String)
  | save
  | restore

inductive Reply where
  | replaced (a? : Option Address)
  | resolved (answer : Except SymbolError Address)
  | done

/-- **A registry in use**, and the copy of it that was put aside last. -/
structure Session where
  live : Registry := .empty
  kept : Registry := .empty

def serve (s : Session) : Request → Reply × Session
  | .register name a => (.replaced (s.live.enter name a).1, ⟨(s.live.enter name a).2, s.kept⟩)
  | .registerFunction name pointer =>
    (.replaced (s.live.enterFunction name pointer).1, ⟨(s.live.enterFunction name pointer).2, s.kept⟩)
  | .resolve name => (.resolved (s.live.resolve name), s)
  | .save => (.done, ⟨s.live, s.live⟩)
  | .restore => (.done, ⟨s.kept, s.kept⟩)

def afterAll (s : Session) (qs : List Request) : Session := qs.foldl (fun s q => (serve s q).2) s

/-- The name and the address that a request registers. -/
def Request.entry? : Request → Option (String × Address)
  | .register name a => some (name, a)
  | .registerFunction name pointer => some (name, ⟨pointer⟩)
  | .resolve _ | .save | .restore => none

/-- **Do requests go back behind their beginning?**  They do if they restore before they save. -/
def goBack : List Request → Bool
  | [] => false
  | .save :: _ => false
  | .restore :: _ => true
  | _ :: qs => goBack qs

/-- **The registrations that hold** behind requests, in their order: those that the requests behind them do not go back
behind. -/
def holding : List Request → List (String × Address)
  | [] => []
  | q :: qs => if goBack qs then holding qs else q.entry?.toList ++ holding qs

variable {s : Session} {q : Request} {qs : List Request} {name : String} {a : Address}

theorem afterAll_append (s : Session) (before after : List Request) :
    afterAll s (before ++ after) = afterAll (afterAll s before) after :=
  List.foldl_append

theorem serve_of_entry (h : q.entry? = some (name, a)) :
    serve s q = (.replaced (s.live.find? name), ⟨s.live.register name a, s.kept⟩) := by
  cases q with
  | register name' a' =>
    cases h
    rfl
  | registerFunction name' pointer =>
    cases h
    rfl
  | resolve name' => cases h
  | save => cases h
  | restore => cases h

/-- **Behind requests a registry holds the registrations that hold**, entered into what it was, or into the copy if the
requests go back behind their beginning. -/
theorem live_afterAll : ∀ (qs : List Request) (s : Session),
    (afterAll s qs).live = (if goBack qs then s.kept else s.live).enterAll (holding qs)
  | [], s => rfl
  | q :: qs, s => by
    -- the rest starts from the session behind the first request, where a save and a restore leave two equal registries
    have hrest := live_afterAll qs (serve s q).2
    rw [afterAll, List.foldl_cons, ← afterAll, hrest, holding]
    cases q with
    | save => cases h : goBack qs <;> simp [goBack, serve, Request.entry?]
    | restore => cases h : goBack qs <;> simp [goBack, serve, Request.entry?]
    | resolve name => cases h : goBack qs <;> simp [goBack, serve, Request.entry?, h]
    | register name a =>
      cases h : goBack qs <;> simp [goBack, serve, Request.entry?, h, enter, enterAll]
    | registerFunction name pointer =>
      cases h : goBack qs <;> simp [goBack, serve, Request.entry?, h, enterFunction, enter, enterAll]

theorem live_afterAll_new (qs : List Request) : (afterAll {} qs).live = empty.enterAll (holding qs) := by
  rw [live_afterAll]
  cases goBack qs <;> rfl

theorem kept_afterAll : ∀ (qs : List Request) (s : Session), Request.save ∉ qs → (afterAll s qs).kept = s.kept
  | [], s, _ => rfl
  | q :: qs, s, h => by
    rw [List.mem_cons, not_or] at h
    obtain ⟨hq, hqs⟩ := h
    rw [afterAll, List.foldl_cons, ← afterAll, kept_afterAll qs _ hqs]
    cases q with
    | save => exact absurd rfl hq
    | _ => rfl

theorem resolve_of_some {r : Registry} (h : r.find? name = some a) : r.resolve name = .ok a := by
  rw [resolve, h]

theorem resolve_of_none {r : Registry} (h : r.find? name = none) : r.resolve name = .error (.notFound name) := by
  rw [resolve, h]

/-- **A registry is a map from the names that hold to their last addresses.**  Behind any requests a name has the address
of the last registration of it that holds, and none if there is none; a registration is told the address it replaces, and
touches no other name; and there are as many entries as names that hold.  A restore goes back to the save before it,
whatever came between, and to an empty registry if nothing was saved. -/
theorem answers_holding (before : List Request) :
    let s := afterAll {} before
    let entries := holding before
    (∀ name a, lastOf? entries name = some a → (serve s (.resolve name)).1 = .resolved (.ok a)) ∧
    (∀ name, lastOf? entries name = none → (serve s (.resolve name)).1 = .resolved (.error (.notFound name))) ∧
    (∀ q name a, q.entry? = some (name, a) → (serve s q).1 = .replaced (lastOf? entries name) ∧
      (serve s q).2.live.resolve name = .ok a ∧
      ∀ other, other ≠ name → (serve s q).2.live.resolve other = s.live.resolve other) ∧
    s.live.size = (entries.map Prod.fst).dedup.length ∧
    (∀ since, Request.save ∉ since → (afterAll {} (before ++ .save :: (since ++ [.restore]))).live = s.live) ∧
    (Request.save ∉ before → (afterAll {} (before ++ [.restore])).live = empty) := by
  intro s entries
  have hfind (name : String) : s.live.find? name = lastOf? entries name := by
    rw [live_afterAll_new, find?_enterAll_empty]
  refine ⟨fun name a h => ?_, fun name h => ?_, fun q name a h => ⟨?_, ?_, fun other hne => ?_⟩, ?_, fun since h => ?_,
    fun h => ?_⟩
  · exact congrArg Reply.resolved (resolve_of_some ((hfind name).trans h))
  · exact congrArg Reply.resolved (resolve_of_none ((hfind name).trans h))
  · rw [serve_of_entry h, hfind]
  · rw [serve_of_entry h]
    exact resolve_of_some (by rw [find?_register, if_pos rfl])
  · have hsame : (s.live.register name a).find? other = s.live.find? other := by
      rw [find?_register, if_neg (Ne.symm hne)]
    rw [serve_of_entry h, resolve, resolve, hsame]
  · rw [live_afterAll_new, size_enterAll_empty]
  · have hkept := kept_afterAll since ⟨s.live, s.live⟩ h
    rw [afterAll_append]
    show (afterAll ⟨s.live, s.live⟩ (since ++ [.restore])).live = s.live
    rw [afterAll_append]
    exact hkept
  · have hkept := kept_afterAll before {} h
    rw [afterAll_append]
    exact hkept

/-- Two names registered behind a copy, one of them for the second time, before the copy is put back. -/
def smallSession : List Request :=
  [.register "f" ⟨0x10⟩, .save, .registerFunction "f" 0x20, .register "g" ⟨0x30⟩]

/-- The address of `f` gives way to another, comes back with the copy, and `g` is gone then. -/
theorem answers_holding_smallSession :
    (serve (afterAll {} smallSession) (.register "f" ⟨0x40⟩)).1 = .replaced (some ⟨0x20⟩) ∧
    (afterAll {} smallSession).live.size = 2 ∧
    (serve (afterAll {} (smallSession ++ [.restore])) (.resolve "f")).1 = .resolved (.ok ⟨0x10⟩) ∧
    (serve (afterAll {} (smallSession ++ [.restore])) (.resolve "g")).1 = .resolved (.error (.notFound "g")) := by
  obtain ⟨-, -, hreplaced, hsize, -⟩ := answers_holding smallSession
  obtain ⟨hfound, hmissing, -⟩ := answers_holding (smallSession ++ [.restore])
  exact ⟨(hreplaced _ "f" ⟨0x40⟩ rfl).1, hsize.trans (by decide +kernel), hfound "f" ⟨0x10⟩ (by decide +kernel),
    hmissing "g" (by decide +kernel)⟩

end Registry
end BranchChain
