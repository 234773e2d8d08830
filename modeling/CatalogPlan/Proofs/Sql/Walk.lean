import CatalogPlan.Proofs.Event
import CatalogPlan.Sql.References

/-!
# What a walk comes to

A walk goes from tree to tree and, where it may, into the trees of a group. What it
finds is what the trees that it comes to say, each by itself: the calls, the
relations that were announced, and the bare words in lists of relations, at which
it fails.
-/

namespace CatalogPlan.Sql

open Sql.Parser (realName parentName)

-- ---------------------------------------------------------------------------
-- The trees that a walk comes to
-- ---------------------------------------------------------------------------

/-- Whether a relation is expected after a tree. -/
def expectedAfter (expected : Bool) : Tree → Bool
  | .leaf token =>
    if token.isPassedOver then expected
    else token.kind.isKeyword && announcesRelation token.text
  | .group .. => false

def holdsParenthesis (ts : List Tree) : Bool :=
  ts.any (·.isKind .parenthesis)

def firstCall? : List Tree → Option (List Tree)
  | [] => none
  | .group .call children :: _ => some children
  | _ :: rest => firstCall? rest

def subquery? : Tree → Option (List Tree)
  | .leaf _ => none
  | .group k children => if k != .call && holdsParenthesis children then some children else none

/-- The lists of trees that a walk goes into from a tree. -/
def entered (expected : Bool) : Tree → List (List Tree)
  | .leaf _ => []
  | .group .call children => if expected then [] else [children]
  | .group .identifier children =>
    if expected then (if holdsParenthesis children then [children] else [])
    else [(firstCall? children).getD children]
  | .group .identifierList children =>
    if expected then children.filterMap subquery? else [children]
  | .group _ children => [children]

/-- A walk of trees comes to a tree where a relation is expected or not. -/
inductive Reached : Bool → List Tree → Bool → Tree → Prop
  | here : Reached e (t :: rest) e t
  | later : Reached (expectedAfter e t) rest e' u → Reached e (t :: rest) e' u
  | inside : ds ∈ entered e t → Reached false ds e' u → Reached e (t :: rest) e' u

variable {e e' : Bool} {t u : Tree} {ts : List Tree}

-- ---------------------------------------------------------------------------
-- What a tree says
-- ---------------------------------------------------------------------------

def isBare : Tree → Bool
  | .leaf token => !(token.kind.isBlank || token.isPunctuation ",")
  | .group .. => false

def hasBareMember (expected : Bool) : Tree → Bool
  | .group .identifierList children => expected && children.any isBare
  | _ => false

section
variable [Parser]

def called (expected : Bool) : Tree → List WrittenName
  | .group .call children => if expected then [] else [⟨none, realName children⟩]
  | .group .identifier children =>
    if expected then []
    else (firstCall? children).toList.map fun call => ⟨parentName children, realName call⟩
  | _ => []

def memberRelations : Tree → List WrittenName
  | .leaf _ => []
  | .group k children =>
    if k != .call && holdsParenthesis children then []
    else if k == .call || k == .identifier then (namedRelation children).relations
    else []

def announced (expected : Bool) : Tree → List WrittenName
  | .leaf _ => []
  | .group k children =>
    if expected then
      if k = .identifierList then children.flatMap memberRelations
      else if k = .call ∨ k = .identifier then memberRelations (.group k children)
      else []
    else []

end

-- ---------------------------------------------------------------------------
-- Finding
-- ---------------------------------------------------------------------------

/-- What a walk gives: it fails exactly at bare members, and otherwise finds certain
calls and relations. -/
structure Finds (x : Except Fault References) (bare : Prop) (calls relations : WrittenName → Prop) :
    Prop where
  error_iff : ∀ fault, x = .error fault ↔ fault = .bareListMember ∧ bare
  functions_iff : ∀ r, x = .ok r → ∀ w, w ∈ r.functions ↔ calls w
  relations_iff : ∀ r, x = .ok r → ∀ w, w ∈ r.relations ↔ relations w

namespace Finds

variable {x y : Except Fault References} {b b' : Prop} {c c' p p' : WrittenName → Prop}

theorem congr (h : Finds x b c p) (hb : b ↔ b') (hc : ∀ w, c w ↔ c' w) (hp : ∀ w, p w ↔ p' w) :
    Finds x b' c' p' where
  error_iff fault := by rw [h.error_iff, hb]
  functions_iff r hr w := by rw [h.functions_iff r hr, hc]
  relations_iff r hr w := by rw [h.relations_iff r hr, hp]

theorem ok (r : References) : Finds (.ok r) False (· ∈ r.functions) (· ∈ r.relations) where
  error_iff fault := by simp
  functions_iff r' hr w := by rw [Except.ok.inj hr]
  relations_iff r' hr w := by rw [Except.ok.inj hr]

theorem nothing : Finds (.ok .none) False (fun _ => False) (fun _ => False) :=
  (ok .none).congr Iff.rfl (by simp [References.none]) (by simp [References.none])

theorem bare : Finds (.error .bareListMember) True c p where
  error_iff fault := by simp [eq_comm]
  functions_iff r hr := nomatch hr
  relations_iff r hr := nomatch hr

theorem append (hx : Finds x b c p) (hy : Finds y b' c' p') :
    Finds (do let here ← x; return here.append (← y)) (b ∨ b') (fun w => c w ∨ c' w)
      (fun w => p w ∨ p' w) where
  error_iff fault := by
    cases x with
    | error f =>
      obtain ⟨rfl, hb⟩ := (hx.error_iff f).mp rfl
      simp [bind, Except.bind, hb, eq_comm]
    | ok r =>
      have hb : ¬b := fun hb => nomatch (hx.error_iff .bareListMember).mpr ⟨rfl, hb⟩
      simp only [hb, false_or, ← hy.error_iff]
      cases y <;> simp [bind, Except.bind, pure, Except.pure]
  functions_iff r hr w := by
    obtain ⟨r₁, hr₁, h⟩ := bind_ok.mp hr
    obtain ⟨r₂, hr₂, h⟩ := bind_ok.mp h
    obtain rfl := pure_ok.mp h
    rw [← hx.functions_iff r₁ hr₁, ← hy.functions_iff r₂ hr₂, References.append, List.mem_append]
  relations_iff r hr w := by
    obtain ⟨r₁, hr₁, h⟩ := bind_ok.mp hr
    obtain ⟨r₂, hr₂, h⟩ := bind_ok.mp h
    obtain rfl := pure_ok.mp h
    rw [← hx.relations_iff r₁ hr₁, ← hy.relations_iff r₂ hr₂, References.append, List.mem_append]

theorem isOk_iff (h : Finds x b c p) : (∃ r, x = .ok r) ↔ ¬b := by
  cases x with
  | ok r => simpa using fun hb : b => nomatch (h.error_iff .bareListMember).mpr ⟨rfl, hb⟩
  | error fault => simpa using ((h.error_iff fault).mp rfl).2

end Finds

-- ---------------------------------------------------------------------------
-- The walk
-- ---------------------------------------------------------------------------

theorem not_reached_nil : ¬Reached e [] e' t :=
  fun h => nomatch h

theorem reached_cons : Reached e (t :: ts) e' u ↔ e' = e ∧ u = t ∨
    (∃ ds ∈ entered e t, Reached false ds e' u) ∨ Reached (expectedAfter e t) ts e' u := by
  constructor
  · intro h
    cases h with
    | here => exact .inl ⟨rfl, rfl⟩
    | later h => exact .inr (.inr h)
    | inside hds h => exact .inr (.inl ⟨_, hds, h⟩)
  · rintro (⟨rfl, rfl⟩ | ⟨ds, hds, h⟩ | h)
    · exact .here
    · exact .inside hds h
    · exact .later h

def Meet (lists : List (List Tree)) (P : Bool → Tree → Prop) : Prop :=
  ∃ ts ∈ lists, ∃ e t, Reached false ts e t ∧ P e t

theorem meet_nil {P : Bool → Tree → Prop} : ¬Meet [] P := by
  simp [Meet]

theorem meet_cons {lists : List (List Tree)} {P : Bool → Tree → Prop} :
    Meet (ts :: lists) P ↔ (∃ e t, Reached false ts e t ∧ P e t) ∨ Meet lists P := by
  simp [Meet]

theorem reaches_cons (P : Bool → Tree → Prop) : (∃ e' u, Reached e (t :: ts) e' u ∧ P e' u) ↔
    (P e t ∨ Meet (entered e t) P) ∨ ∃ e' u, Reached (expectedAfter e t) ts e' u ∧ P e' u := by
  simp only [reached_cons, Meet]
  constructor
  · rintro ⟨e', u, ⟨rfl, rfl⟩ | ⟨ds, hds, h⟩ | h, hP⟩
    · exact .inl (.inl hP)
    · exact .inl (.inr ⟨ds, hds, e', u, h, hP⟩)
    · exact .inr ⟨e', u, h, hP⟩
  · rintro ((hP | ⟨ds, hds, e', u, h, hP⟩) | ⟨e', u, h, hP⟩)
    · exact ⟨e, t, .inl ⟨rfl, rfl⟩, hP⟩
    · exact ⟨e', u, .inr (.inl ⟨ds, hds, h⟩), hP⟩
    · exact ⟨e', u, .inr (.inr h), hP⟩

theorem References.append_assoc (a b c : References) :
    (a.append b).append c = a.append (b.append c) := by
  simp [append]

theorem References.none_append (r : References) : References.none.append r = r := rfl

theorem none_bind (x : Except Fault References) :
    (do let here ← (.ok .none : Except Fault References); return here.append (← x)) = x := by
  cases x <;> rfl

section
variable [Parser]

theorem walk_cons (e : Bool) (t : Tree) (ts : List Tree) : walk e (t :: ts) = (do
    let here ← walkTree e t
    return here.append (← walk (expectedAfter e t) ts)) := by
  cases t <;> rfl

theorem walk_leaf (e : Bool) (token : Token) (ts : List Tree) :
    walk e (.leaf token :: ts) = walk (expectedAfter e (.leaf token)) ts := by
  rw [walk_cons, walkTree, none_bind]

theorem firstCallName?_eq (ts : List Tree) : firstCallName? ts = (firstCall? ts).map realName := by
  fun_induction firstCallName? ts with
  | case1 => rfl
  | case2 => rfl
  | case3 t rest ht ih => rw [ih, firstCall?.eq_3 t rest ht]

abbrev FindsIn (x : Except Fault References) (bare : Prop) (calls relations : WrittenName → Prop)
    (lists : List (List Tree)) : Prop :=
  Finds x (bare ∨ Meet lists fun e t => hasBareMember e t = true)
    (fun w => calls w ∨ Meet lists fun e t => w ∈ called e t)
    (fun w => relations w ∨ Meet lists fun e t => w ∈ announced e t)

section

variable {x : Except Fault References} {bare : Prop} {calls relations : WrittenName → Prop}

theorem namedRelation_functions (cs : List Tree) : (namedRelation cs).functions = [] := by
  unfold namedRelation
  split
  · split <;> rfl
  · rfl

theorem walked_into (hcall : k ≠ .call) (hname : k ≠ .identifier)
    (hlist : e = true → k ≠ .identifierList) (children : List Tree) :
    entered e (.group k children) = [children] ∧ called e (.group k children) = [] ∧
      announced e (.group k children) = [] ∧ hasBareMember e (.group k children) = false := by
  cases k with
  | call => exact absurd rfl hcall
  | identifier => exact absurd rfl hname
  | identifierList =>
    obtain rfl : e = false := by simpa using hlist
    exact ⟨rfl, rfl, rfl, rfl⟩
  | _ => cases e <;> exact ⟨rfl, rfl, rfl, rfl⟩

theorem subquery?_some (h : subquery? (.group k children) = some query) :
    query = children ∧ memberRelations (.group k children) = [] := by
  simp only [subquery?, Option.ite_none_right_eq_some, Option.some.injEq] at h
  exact ⟨h.2.symm, by rw [memberRelations, if_pos h.1]⟩

theorem walkMembers_group (k : GroupKind) (children rest : List Tree) :
    walkMembers (.group k children :: rest) = (do
      let here ← (subquery? (.group k children)).elim
        (.ok ⟨memberRelations (.group k children), []⟩) (walk false)
      return here.append (← walkMembers rest)) := by
  have hnamed : namedRelation children = ⟨(namedRelation children).relations, []⟩ :=
    References.mk.injEq .. ▸ ⟨rfl, namedRelation_functions children⟩
  rw [walkMembers]
  change (if (k != .call && holdsParenthesis children) = true then _ else _) = _
  by_cases hq : (k != .call && holdsParenthesis children) = true
  · rw [if_pos hq, subquery?, if_pos hq]
    rfl
  · rw [if_neg hq, subquery?, if_neg hq, memberRelations, if_neg hq]
    split
    · rw [Option.elim_none, ← hnamed]
      rfl
    · rfl

theorem Finds.inside (h : Finds x (∃ e t, Reached false ts e t ∧ hasBareMember e t = true)
    (fun w => ∃ e t, Reached false ts e t ∧ w ∈ called e t)
    (fun w => ∃ e t, Reached false ts e t ∧ w ∈ announced e t)) :
    FindsIn x False (fun _ => False) (fun _ => False) [ts] := by
  simpa [FindsIn, Meet] using h

theorem findsIn_nil : FindsIn x bare calls relations [] ↔ Finds x bare calls relations := by
  simp [FindsIn, Meet]

end

mutual

theorem walk_finds (e : Bool) : (ts : List Tree) → Finds (walk e ts)
    (∃ e' t, Reached e ts e' t ∧ hasBareMember e' t = true)
    (fun w => ∃ e' t, Reached e ts e' t ∧ w ∈ called e' t)
    (fun w => ∃ e' t, Reached e ts e' t ∧ w ∈ announced e' t)
  | [] => by
    refine Finds.nothing.congr ?_ ?_ ?_ <;> simp [not_reached_nil]
  | t :: ts => by
    rw [walk_cons]
    exact ((walkTree_finds e t).append (walk_finds (expectedAfter e t) ts)).congr
      (reaches_cons (fun e t => hasBareMember e t = true)).symm
      (fun w => (reaches_cons fun e t => w ∈ called e t).symm)
      (fun w => (reaches_cons fun e t => w ∈ announced e t).symm)

theorem walkTree_finds (e : Bool) : (t : Tree) → FindsIn (walkTree e t) (hasBareMember e t = true)
    (· ∈ called e t) (· ∈ announced e t) (entered e t)
  | .leaf token => by
    refine findsIn_nil.mpr (Finds.nothing.congr ?_ ?_ ?_) <;> simp [hasBareMember, called, announced]
  | .group k children => by
    have hwalk := (walk_finds false children).inside
    have hfirst := walkFirstCall_finds children
    have hmembers := walkMembers_finds children
    have hnamed := Finds.ok (namedRelation children)
    unfold walkTree
    split
    -- A list of relations, a name and a call where a relation is expected.
    · refine hmembers.congr ?_ ?_ ?_ <;> simp [hasBareMember, called, announced, entered]
    · change FindsIn (if holdsParenthesis children = true then _ else _) _ _ _ _
      by_cases hp : holdsParenthesis children = true
      · rw [if_pos hp]
        refine hwalk.congr ?_ ?_ ?_ <;>
          simp [hasBareMember, called, announced, memberRelations, entered, hp]
      · rw [if_neg hp]
        refine hnamed.congr ?_ ?_ ?_ <;>
          simp [hasBareMember, called, announced, memberRelations, entered, hp, meet_nil,
            namedRelation_functions]
    · refine hnamed.congr ?_ ?_ ?_ <;>
        simp [hasBareMember, called, announced, memberRelations, entered, meet_nil,
          namedRelation_functions]
    -- A call and a name elsewhere.
    · rename_i he
      obtain rfl : e = false := by simpa using he
      refine ((Finds.ok _).append hwalk).congr ?_ ?_ ?_ <;>
        simp [hasBareMember, called, announced, entered, References.function]
    · rename_i he
      obtain rfl : e = false := by simpa using he
      rw [firstCallName?_eq]
      cases hc : firstCall? children with
      | none =>
        refine hwalk.congr ?_ ?_ ?_ <;> simp [hasBareMember, called, announced, entered, hc]
      | some call =>
        rw [hc] at hfirst
        refine ((Finds.ok _).append hfirst).congr ?_ ?_ ?_ <;>
          simp [hasBareMember, called, announced, entered, hc, References.function]
    -- Any other group.
    · rename_i hcall hname hlist _ _
      obtain ⟨hinto, hcalled, hannounced, hbare⟩ := walked_into hcall hname hlist children
      refine hwalk.congr ?_ ?_ ?_ <;> simp [hinto, hcalled, hannounced, hbare]

theorem walkFirstCall_finds : (ts : List Tree) → FindsIn (walkFirstCall ts) False (fun _ => False)
    (fun _ => False) (firstCall? ts).toList
  | [] => findsIn_nil.mpr Finds.nothing
  | .leaf _ :: rest => by
    unfold walkFirstCall
    exact walkFirstCall_finds rest
  | .group k children :: rest => by
    have hrest := walkFirstCall_finds rest
    by_cases hk : k = .call
    · subst hk
      exact (walk_finds false children).inside
    · have hne : ∀ cs, Tree.group k children = .group .call cs → False := by
        rintro _ ⟨⟩
        exact hk rfl
      rwa [walkFirstCall.eq_3 _ _ hne, firstCall?.eq_3 _ _ hne]

theorem walkMembers_finds : (ts : List Tree) → FindsIn (walkMembers ts) (ts.any isBare = true)
    (fun _ => False) (· ∈ ts.flatMap memberRelations) (ts.filterMap subquery?)
  | [] => findsIn_nil.mpr (Finds.nothing.congr (by simp) (by simp) (by simp))
  | .leaf token :: rest => by
    have hsubs : (Tree.leaf token :: rest).filterMap subquery? = rest.filterMap subquery? := rfl
    rw [hsubs]
    unfold walkMembers
    split
    · rename_i hb
      have hbare : isBare (.leaf token) = false := by rw [isBare, hb, Bool.not_true]
      exact (walkMembers_finds rest).congr (by rw [List.any_cons, hbare, Bool.false_or])
        (fun _ => Iff.rfl) fun _ => Iff.rfl
    · rename_i hb
      have hbare : isBare (.leaf token) = true := by simpa [isBare] using hb
      exact Finds.bare.congr (by simp [hbare]) (fun _ => Iff.rfl) fun _ => Iff.rfl
  | .group k children :: rest => by
    have hrest := walkMembers_finds rest
    have hbare : (Tree.group k children :: rest).any isBare = rest.any isBare := rfl
    rw [walkMembers_group]
    cases hq : subquery? (.group k children) with
    | some query =>
      obtain ⟨rfl, hnone⟩ := subquery?_some hq
      refine ((walk_finds false query).inside.append hrest).congr ?_ ?_ ?_ <;>
        simp [hbare, hq, hnone, meet_cons, meet_nil, or_left_comm]
    | none =>
      refine ((Finds.ok ⟨memberRelations (.group k children), []⟩).append hrest).congr ?_ ?_ ?_ <;>
        simp [hbare, hq, or_assoc]

end

-- ---------------------------------------------------------------------------
-- Texts
-- ---------------------------------------------------------------------------

def walkEach : List (List Tree) → Except Fault References
  | [] => .ok .none
  | ts :: rest => do
    let here ← walk false ts
    return here.append (← walkEach rest)

theorem walkEach_finds (lists : List (List Tree)) : Finds (walkEach lists)
    (Meet lists fun e t => hasBareMember e t = true) (fun w => Meet lists fun e t => w ∈ called e t)
    (fun w => Meet lists fun e t => w ∈ announced e t) := by
  induction lists with
  | nil =>
    refine Finds.nothing.congr ?_ ?_ ?_ <;> simp [meet_nil]
  | cons ts lists ih =>
    exact ((walk_finds false ts).append ih).congr meet_cons.symm (fun _ => meet_cons.symm)
      fun _ => meet_cons.symm

theorem mapM_walk (lists : List (List Tree)) (before : References) :
    (do let found ← lists.mapM (walk false); return found.foldl .append before) =
      (do let found ← walkEach lists; return before.append found) := by
  induction lists generalizing before with
  | nil => simp [walkEach, bind, Except.bind, pure, Except.pure, References.append, References.none]
  | cons ts lists ih =>
    simp only [List.mapM_cons, walkEach, bind_assoc, pure_bind, List.foldl_cons, ih,
      References.append_assoc]

theorem references_eq (sql : String) :
    references sql = (do return (← walkEach (Parser.parse sql)).distinct) := by
  have hrun := mapM_walk (Parser.parse sql) .none
  simp only [References.none_append, bind_pure] at hrun
  rw [references, ← hrun]
  simp only [bind_assoc, pure_bind]

theorem references_finds (sql : String) : Finds (references sql)
    (Meet (Parser.parse sql) fun e t => hasBareMember e t = true)
    (fun w => Meet (Parser.parse sql) fun e t => w ∈ called e t)
    (fun w => Meet (Parser.parse sql) fun e t => w ∈ announced e t) := by
  have heach := walkEach_finds (Parser.parse sql)
  rw [references_eq]
  refine ⟨fun fault => ?_, fun r hr w => ?_, fun r hr w => ?_⟩
  · simp [bind_error, heach.error_iff, pure, Except.pure]
  · obtain ⟨r', hr', h⟩ := bind_ok.mp hr
    obtain rfl := pure_ok.mp h
    rw [← heach.functions_iff r' hr', References.distinct, List.mem_eraseDups]
  · obtain ⟨r', hr', h⟩ := bind_ok.mp hr
    obtain rfl := pure_ok.mp h
    rw [← heach.relations_iff r' hr', References.distinct, List.mem_eraseDups]

end

end CatalogPlan.Sql
