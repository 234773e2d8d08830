import CatalogPlan.Proofs.Routine
import CatalogPlan.Proofs.Sql.Walk

/-!
# Calls in a text

A walk that comes to a tree finds the call that it is or names, goes into some of
its trees, and passes over the others: where a relation is expected it looks for no
calls, and of a name that holds a call it reads that call only. So every call in a
text is found, or stands in what was passed over at a tree that was come to.
-/

namespace CatalogPlan

namespace Sql

open Sql.Parser (realName)

variable {e : Bool} {t : Tree} {ts ds : List Tree} {n : Option String}

-- ---------------------------------------------------------------------------
-- What a walk goes into
-- ---------------------------------------------------------------------------

/-- The trees of a tree that a walk does not go into and does not read as a call. -/
def passedOver (expected : Bool) : Tree → List Tree
  | .leaf _ => []
  | .group .call children => if expected then [.group .call children] else []
  | .group .identifier children =>
    if expected then (if holdsParenthesis children then [] else children)
    else if (firstCall? children).isSome then children.eraseP (·.isKind .call) else []
  | .group .identifierList children =>
    if expected then children.filter fun m => (subquery? m).isNone else []
  | .group _ _ => []

theorem sizeOf_firstCall (h : firstCall? ts = some ds) : sizeOf ds < sizeOf ts := by
  fun_induction firstCall? ts with
  | case1 => cases h
  | case2 children rest =>
    obtain rfl := Option.some.inj h
    rw [List.cons.sizeOf_spec, Tree.group.sizeOf_spec]
    omega
  | case3 t rest ht ih =>
    have hrest := ih h
    rw [List.cons.sizeOf_spec]
    omega

theorem sizeOf_entered (h : ds ∈ entered e t) : sizeOf ds < sizeOf t := by
  have hwhole : ∀ k, ∀ children : List Tree, sizeOf children < sizeOf (Tree.group k children) := by
    intro k children
    rw [Tree.group.sizeOf_spec]
    omega
  cases t with
  | leaf token => cases h
  | group k children =>
    have hgroup := hwhole k children
    by_cases hcall : k = .call
    · subst hcall
      obtain ⟨-, rfl⟩ : e = false ∧ ds = children := by simpa [entered] using h
      exact hgroup
    by_cases hname : k = .identifier
    · subst hname
      cases e with
      | true =>
        obtain ⟨-, rfl⟩ : holdsParenthesis children = true ∧ ds = children := by
          simpa [entered] using h
        exact hgroup
      | false =>
        obtain rfl : ds = (firstCall? children).getD children := by simpa [entered] using h
        cases hc : firstCall? children with
        | none => exact hgroup
        | some first => exact (sizeOf_firstCall hc).trans hgroup
    by_cases hlist : k = .identifierList ∧ e = true
    · obtain ⟨rfl, rfl⟩ := hlist
      obtain ⟨m, hm, hq⟩ : ∃ m ∈ children, subquery? m = some ds := by simpa [entered] using h
      cases m with
      | leaf token => cases hq
      | group k' members =>
        obtain ⟨rfl, -⟩ := subquery?_some hq
        exact ((hwhole k' ds).trans (List.sizeOf_lt_of_mem hm)).trans hgroup
    · obtain ⟨hinto, -⟩ := walked_into hcall hname (fun he hk => hlist ⟨hk, he⟩) children (e := e)
      obtain rfl : ds = children := by simpa [hinto] using h
      exact hgroup

-- ---------------------------------------------------------------------------
-- All calls
-- ---------------------------------------------------------------------------

section
variable [Parser]

mutual

/-- The names of the calls among trees, at any depth. -/
def callNames : List Tree → List (Option String)
  | [] => []
  | t :: rest => callNamesOf t ++ callNames rest

def callNamesOf : Tree → List (Option String)
  | .leaf _ => []
  | .group k children => (if k = .call then [realName children] else []) ++ callNames children

end

theorem mem_callNames : n ∈ callNames ts ↔ ∃ t ∈ ts, n ∈ callNamesOf t := by
  induction ts with
  | nil => simp [callNames]
  | cons t rest ih => simp [callNames, ih]

theorem mem_callNamesOf_group {k : GroupKind} : n ∈ callNamesOf (.group k ds) ↔
    (k = .call ∧ n = realName ds) ∨ n ∈ callNames ds := by
  by_cases hk : k = .call <;> simp [callNamesOf, hk]

theorem mem_callNames_of_firstCall (h : firstCall? ts = some ds) : n ∈ callNames ts ↔
    n = realName ds ∨ n ∈ callNames ds ∨ n ∈ callNames (ts.eraseP (·.isKind .call)) := by
  fun_induction firstCall? ts with
  | case1 => cases h
  | case2 children rest =>
    obtain rfl := Option.some.inj h
    simp [callNames, callNamesOf, Tree.isKind]
  | case3 t rest ht ih =>
    have hkind : t.isKind .call = false := by
      cases t with
      | leaf token => rfl
      | group k children => simpa [Tree.isKind] using fun hk => ht children (by rw [hk])
    rw [List.eraseP_cons_of_neg (by simp [hkind]), callNames, callNames, List.mem_append,
      List.mem_append, ih h]
    tauto

theorem callNamesOf_subquery {m : Tree} (h : subquery? m = some ds) :
    callNamesOf m = callNames ds := by
  cases m with
  | leaf token => cases h
  | group k children =>
    obtain ⟨rfl, -⟩ := subquery?_some h
    have hk : k ≠ .call := by
      rintro rfl
      simp [subquery?] at h
    simp [callNamesOf, hk]

/-- A call in a list of relations stands in a query among them, or is passed over. -/
theorem mem_callNames_members : n ∈ callNames ts ↔ (∃ ds ∈ ts.filterMap subquery?, n ∈ callNames ds) ∨
    n ∈ callNames (ts.filter fun m => (subquery? m).isNone) := by
  rw [mem_callNames, mem_callNames]
  simp only [List.mem_filterMap, List.mem_filter, Option.isNone_iff_eq_none]
  constructor
  · rintro ⟨m, hm, hn⟩
    cases hq : subquery? m with
    | none => exact .inr ⟨m, ⟨hm, hq⟩, hn⟩
    | some ds => exact .inl ⟨ds, ⟨m, hm, hq⟩, callNamesOf_subquery hq ▸ hn⟩
  · rintro (⟨ds, ⟨m, hm, hq⟩, hn⟩ | ⟨m, ⟨hm, -⟩, hn⟩)
    · exact ⟨m, hm, callNamesOf_subquery hq ▸ hn⟩
    · exact ⟨m, hm, hn⟩

theorem mem_callNamesOf (e : Bool) (t : Tree) : n ∈ callNamesOf t ↔
    (∃ w ∈ called e t, w.name = n) ∨ (∃ ds ∈ entered e t, n ∈ callNames ds) ∨
      n ∈ callNames (passedOver e t) := by
  cases t with
  | leaf token => simp [callNamesOf, called, entered, passedOver, callNames]
  | group k children =>
    rw [mem_callNamesOf_group]
    by_cases hcall : k = .call
    · subst hcall
      cases e <;> simp [called, entered, passedOver, callNames, callNamesOf, eq_comm]
    by_cases hname : k = .identifier
    · subst hname
      cases e with
      | true =>
        by_cases hp : holdsParenthesis children = true <;>
          simp [called, entered, passedOver, callNames, hp]
      | false =>
        cases hc : firstCall? children with
        | none => simp [called, entered, passedOver, callNames, hc]
        | some first =>
          simp [called, entered, passedOver, hc, mem_callNames_of_firstCall hc, eq_comm]
    by_cases hlist : k = .identifierList
    · subst hlist
      cases e with
      | true => simpa [called, entered, passedOver] using mem_callNames_members
      | false => simp [called, entered, passedOver, callNames]
    · obtain ⟨hinto, hcalled, -, -⟩ := walked_into hcall hname (fun _ => hlist) children (e := e)
      have hover : passedOver e (.group k children) = [] := by
        cases k <;> first | rfl | contradiction
      simp [hcall, hinto, hcalled, hover, callNames]

-- ---------------------------------------------------------------------------
-- The calls that a walk comes to
-- ---------------------------------------------------------------------------

/-- Each call among trees is read at a tree that a walk comes to, or is passed over
at one. -/
theorem exists_reached (e : Bool) (ts : List Tree) (h : n ∈ callNames ts) :
    ∃ e' t, Reached e ts e' t ∧ ((∃ w ∈ called e' t, w.name = n) ∨ n ∈ callNames (passedOver e' t)) := by
  match ts with
  | [] => cases h
  | t :: rest =>
    rw [callNames, List.mem_append, mem_callNamesOf e t] at h
    rcases h with (hread | ⟨ds, hds, hn⟩ | hover) | hrest
    · exact ⟨e, t, .here, .inl hread⟩
    · have hsmaller := sizeOf_entered hds
      obtain ⟨e', u, hu, h⟩ := exists_reached false ds hn
      exact ⟨e', u, .inside hds hu, h⟩
    · exact ⟨e, t, .here, .inr hover⟩
    · obtain ⟨e', u, hu, h⟩ := exists_reached (expectedAfter e t) rest hrest
      exact ⟨e', u, .later hu, h⟩
termination_by sizeOf ts
decreasing_by all_goals rw [List.cons.sizeOf_spec]; omega

theorem Reached.callNames_subset {e' : Bool} {u : Tree} (h : Reached e ts e' u) :
    callNamesOf u ⊆ callNames ts := by
  intro n hn
  induction h with
  | here => simp [callNames, hn]
  | later _ ih => simp [callNames, ih hn]
  | @inside e t ds _ _ _ hds _ ih =>
    rw [callNames, List.mem_append, mem_callNamesOf e t]
    exact .inl (.inr (.inl ⟨ds, hds, ih hn⟩))

def callsOf (sql : String) : List (Option String) :=
  (Parser.parse sql).flatMap callNames

theorem mem_callsOf (h : references sql = .ok r) : n ∈ callsOf sql ↔
    (∃ w ∈ r.functions, w.name = n) ∨ Meet (Parser.parse sql) fun e t => n ∈ callNames (passedOver e t) := by
  have hfound := (references_finds sql).functions_iff r h
  constructor
  · intro hn
    obtain ⟨ts, hts, hn⟩ := List.mem_flatMap.mp hn
    obtain ⟨e, t, hr, ⟨w, hw, hname⟩ | hover⟩ := exists_reached false ts hn
    · exact .inl ⟨w, (hfound w).mpr ⟨ts, hts, e, t, hr, hw⟩, hname⟩
    · exact .inr ⟨ts, hts, e, t, hr, hover⟩
  · rintro (⟨w, hw, rfl⟩ | ⟨ts, hts, e, t, hr, hover⟩)
    · obtain ⟨ts, hts, e, t, hr, hw⟩ := (hfound w).mp hw
      exact List.mem_flatMap.mpr ⟨ts, hts, hr.callNames_subset
        ((mem_callNamesOf e t).mpr (.inl ⟨w, hw, rfl⟩))⟩
    · exact List.mem_flatMap.mpr ⟨ts, hts, hr.callNames_subset
        ((mem_callNamesOf e t).mpr (.inr (.inr hover)))⟩

end

end Sql

end CatalogPlan
