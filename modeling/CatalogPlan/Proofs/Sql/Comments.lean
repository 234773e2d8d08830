import CatalogPlan.Proofs.Sql.Walk

/-!
# Comments in a text

Taking comments out of trees changes nothing that a walk finds in them, as long as
none was in the way: a group of comments where a relation is expected, a comment by
itself in a list of relations, or one where the schema of a name stands.
-/

namespace CatalogPlan.Sql

open Sql.Tree (nameAfterDot nameHere? beforeDot? isDot)

-- ---------------------------------------------------------------------------
-- Trees without comments
-- ---------------------------------------------------------------------------

def isComment : Tree → Bool
  | .leaf token => token.kind == .comment
  | .group k children => k == .comment && children.all fun
    | .leaf token => token.kind == .comment || token.kind.isBlank
    | .group .. => false

/-- Some comments among trees, at any depth, are taken out. -/
inductive Uncommented : List Tree → List Tree → Prop
  | nil : Uncommented [] []
  | drop : isComment t = true → Uncommented ts ts' → Uncommented (t :: ts) ts'
  | leaf : Uncommented ts ts' → Uncommented (.leaf token :: ts) (.leaf token :: ts')
  | group : Uncommented ds ds' → Uncommented ts ts' →
      Uncommented (.group k ds :: ts) (.group k ds' :: ts')

mutual

def withoutComments : List Tree → List Tree
  | [] => []
  | t :: rest =>
    if isComment t then withoutComments rest else stripped t :: withoutComments rest

def stripped : Tree → Tree
  | .leaf token => .leaf token
  | .group k children => .group k (withoutComments children)

end

mutual

def holdsComment : Tree → Bool
  | .leaf token => token.kind == .comment
  | .group k children => k == .comment || anyComment children

def anyComment : List Tree → Bool
  | [] => false
  | t :: rest => holdsComment t || anyComment rest

end

variable {e : Bool} {t : Tree} {ts ts' ds ds' : List Tree} {k : GroupKind}

theorem uncommented_all : (ts : List Tree) → Uncommented ts (withoutComments ts)
  | [] => .nil
  | .group k children :: rest => by
    rw [withoutComments]
    split
    · exact .drop ‹_› (uncommented_all rest)
    · exact .group (uncommented_all children) (uncommented_all rest)
  | .leaf token :: rest => by
    rw [withoutComments]
    split
    · exact .drop ‹_› (uncommented_all rest)
    · exact .leaf (uncommented_all rest)

theorem holdsComment_of_isComment (h : isComment t = true) : holdsComment t = true := by
  cases t with
  | leaf token => exact h
  | group k children =>
    rw [isComment, Bool.and_eq_true] at h
    rw [holdsComment, h.1, Bool.true_or]

theorem isComment_not_dot (h : isComment t = true) : t.isDot = false := by
  cases t with
  | leaf token =>
    obtain hk : token.kind = .comment := eq_of_beq h
    simp [isDot, Tree.isPunctuation, Token.isPunctuation, hk]
  | group k children => rfl

theorem isComment_not_blank (h : isComment t = true) : t.isBlank = false := by
  cases t with
  | leaf token =>
    obtain hk : token.kind = .comment := eq_of_beq h
    simp [Tree.isBlank, hk, TokenKind.isBlank]
  | group k children => rfl

theorem isComment_kind (h : isComment (.group k ds) = true) : k = .comment := by
  rw [isComment, Bool.and_eq_true] at h
  exact eq_of_beq h.1

theorem isComment_nameless (h : isComment t = true) : nameHere? t = none := by
  cases t with
  | leaf token =>
    obtain hk : token.kind = .comment := eq_of_beq h
    simp [nameHere?, Tree.isNamePart, Tree.isToken, hk]
  | group k children =>
    obtain rfl := isComment_kind h
    rfl

-- ---------------------------------------------------------------------------
-- Names
-- ---------------------------------------------------------------------------

/-- The tree before the first dot is the last one before the list, or does not depend
on it. -/
theorem beforeDot?_cases (ts : List Tree) :
    (∀ last, beforeDot? last ts = last) ∨ ∃ found, ∀ last, beforeDot? last ts = found := by
  induction ts with
  | nil => exact .inr ⟨none, fun _ => rfl⟩
  | cons t rest ih =>
    simp only [beforeDot?]
    by_cases hdot : t.isDot = true
    · exact .inl fun last => by rw [if_pos hdot]
    by_cases hblank : t.isBlank = true
    · simpa [hdot, hblank] using ih
    · exact .inr ⟨beforeDot? (some t) rest, fun last => by simp [hdot, hblank]⟩

def schemaCommented (children : List Tree) : Bool :=
  (beforeDot? none children).any holdsComment

namespace Uncommented

theorem eq_of_none (h : Uncommented ts ts') (hnone : anyComment ts = false) : ts' = ts := by
  induction h with
  | nil => rfl
  | drop ht _ _ => simp [anyComment, holdsComment_of_isComment ht] at hnone
  | leaf _ ih =>
    simp only [anyComment, Bool.or_eq_false_iff] at hnone
    rw [ih hnone.2]
  | group _ _ ihd iht =>
    simp only [anyComment, holdsComment, Bool.or_eq_false_iff] at hnone
    rw [ihd hnone.1.2, iht hnone.2]

theorem any_isDot (h : Uncommented ts ts') : ts'.any isDot = ts.any isDot := by
  induction h with
  | nil => rfl
  | drop ht _ ih => rw [List.any_cons, isComment_not_dot ht, Bool.false_or, ih]
  | leaf _ ih => rw [List.any_cons, List.any_cons, ih]
  | group _ _ _ ih =>
    rw [List.any_cons, List.any_cons, ih]
    rfl

theorem nameAfterDot (h : Uncommented ts ts') (seen : Bool) :
    nameAfterDot seen ts' = Tree.nameAfterDot seen ts := by
  induction h generalizing seen with
  | nil => rfl
  | drop ht _ ih =>
    rw [ih, Tree.nameAfterDot, isComment_nameless ht, isComment_not_dot ht]
    simp
  | leaf h ih => simp only [Tree.nameAfterDot, h.any_isDot, ih]
  | group _ h ihd iht =>
    simp only [Tree.nameAfterDot, h.any_isDot, iht, nameHere?, ihd]
    rfl

theorem realName (h : Uncommented ts ts') : Parser.realName ts' = Parser.realName ts :=
  h.nameAfterDot false

theorem holdsParenthesis (h : Uncommented ts ts') : holdsParenthesis ts' = holdsParenthesis ts := by
  induction h with
  | nil => rfl
  | @drop t _ _ ht _ ih =>
    have hkind : t.isKind .parenthesis = false := by
      cases t with
      | leaf token => rfl
      | group k children =>
        obtain rfl := isComment_kind ht
        rfl
    rw [ih, Sql.holdsParenthesis, Sql.holdsParenthesis, List.any_cons, hkind, Bool.false_or]
  | leaf _ ih =>
    rw [Sql.holdsParenthesis, Sql.holdsParenthesis] at ih ⊢
    rw [List.any_cons, List.any_cons, ih]
  | group _ _ _ ih =>
    rw [Sql.holdsParenthesis, Sql.holdsParenthesis] at ih ⊢
    rw [List.any_cons, List.any_cons, ih]
    rfl

theorem firstCall? (h : Uncommented ts ts') : firstCall? ts = none ∧ firstCall? ts' = none ∨
    ∃ ds ds', Sql.firstCall? ts = some ds ∧ Sql.firstCall? ts' = some ds' ∧ Uncommented ds ds' := by
  induction h with
  | nil => exact .inl ⟨rfl, rfl⟩
  | @drop t _ _ ht _ ih =>
    have hcall : ∀ ds, t = .group .call ds → False := by
      rintro ds rfl
      cases isComment_kind ht
    rwa [firstCall?.eq_3 _ _ hcall]
  | leaf _ ih => exact ih
  | @group ds ds' _ _ k hds _ _ ih =>
    by_cases hk : k = .call
    · subst hk
      exact .inr ⟨ds, ds', rfl, rfl, hds⟩
    · have hcall : ∀ cs cs', Tree.group k cs = .group .call cs' → False := by
        rintro _ _ ⟨⟩
        exact hk rfl
      rwa [firstCall?.eq_3 _ _ (hcall _), firstCall?.eq_3 _ _ (hcall _)]

theorem beforeDot? (h : Uncommented ts ts') (last : Option Tree)
    (hclear : (beforeDot? last ts).any holdsComment = false) :
    Tree.beforeDot? last ts' = Tree.beforeDot? last ts := by
  induction h generalizing last with
  | nil => rfl
  | @drop t ts _ ht _ ih =>
    have hstep : Tree.beforeDot? last (t :: ts) = Tree.beforeDot? (some t) ts := by
      simp [Tree.beforeDot?, isComment_not_dot ht, isComment_not_blank ht]
    rcases beforeDot?_cases ts with hlast | ⟨found, hfound⟩
    · simp [hstep, hlast, holdsComment_of_isComment ht] at hclear
    · rw [hstep, hfound, ← hfound last] at hclear ⊢
      exact ih last hclear
  | @leaf ts _ token _ ih =>
    simp only [Tree.beforeDot?] at hclear ⊢
    split
    · rfl
    · rename_i hdot
      rw [if_neg hdot] at hclear
      exact ih _ hclear
  | @group ds ds' ts _ k hds _ _ ih =>
    have hstep : ∀ cs us, Tree.beforeDot? last (.group k cs :: us) =
        Tree.beforeDot? (some (.group k cs)) us := fun _ _ => rfl
    rw [hstep] at hclear ⊢
    rw [hstep]
    rcases beforeDot?_cases ts with hlast | ⟨found, hfound⟩
    · have hnone := hclear
      simp only [hlast, Option.any_some, holdsComment, Bool.or_eq_false_iff] at hnone
      rw [hds.eq_of_none hnone.2]
      exact ih _ hclear
    · rw [hfound, ← hfound (some (.group k ds'))] at hclear ⊢
      exact ih _ hclear

theorem parentName (h : Uncommented ts ts') (hclear : schemaCommented ts = false) :
    Parser.parentName ts' = Parser.parentName ts := by
  show Tree.parentName ts' = Tree.parentName ts
  rw [Tree.parentName, Tree.parentName, h.beforeDot? none hclear]

theorem namedRelation (h : Uncommented ts ts') (hclear : schemaCommented ts = false) :
    namedRelation ts' = Sql.namedRelation ts := by
  rw [Sql.namedRelation, Sql.namedRelation, h.realName, h.parentName hclear]

end Uncommented

-- ---------------------------------------------------------------------------
-- The walk
-- ---------------------------------------------------------------------------

/-- A comment is in the way in a member of a list of relations: it is the member, or
stands where the schema of its name does. -/
def misleadsMember : Tree → Bool
  | .leaf token => token.kind == .comment
  | .group k children =>
    (subquery? (.group k children)).isNone && (k == .call || k == .identifier) &&
      schemaCommented children

/-- A comment is in the way at a tree that a walk comes to: it stands where a relation
is expected, in the way in a list of relations, or where the schema of a name does. -/
def misleads (expected : Bool) : Tree → Bool
  | .leaf _ => false
  | .group .comment _ => expected
  | .group .identifierList children => expected && children.any misleadsMember
  | .group .identifier children =>
    if expected then misleadsMember (.group .identifier children)
    else (firstCall? children).isSome && schemaCommented children
  | .group .call children => expected && schemaCommented children
  | .group _ _ => false

def Clear (e : Bool) (ts : List Tree) : Prop :=
  ∀ e' t, Reached e ts e' t → misleads e' t = false

/-- What taking comments out of trees comes to for a walk. -/
structure Unmoved (ts ts' : List Tree) : Prop where
  walk : ∀ e, Clear e ts → walk e ts' = Sql.walk e ts
  firstCall : (∀ ds ∈ firstCall? ts, Clear false ds) → walkFirstCall ts' = walkFirstCall ts
  members : ts.any misleadsMember = false → (∀ ds ∈ ts.filterMap subquery?, Clear false ds) →
    walkMembers ts' = walkMembers ts

theorem Unmoved.walkTree (h : Uncommented ds ds') (hu : Unmoved ds ds')
    (hclear : misleads e (.group k ds) = false) (hin : ∀ cs ∈ entered e (.group k ds), Clear false cs) :
    walkTree e (.group k ds') = walkTree e (.group k ds) := by
  unfold Sql.walkTree
  split
  · refine hu.members (by simpa [misleads] using hclear) ?_
    simpa [entered] using hin
  · change (if holdsParenthesis ds' = true then _ else _) = if holdsParenthesis ds = true then _ else _
    rw [h.holdsParenthesis]
    by_cases hp : holdsParenthesis ds = true
    · rw [if_pos hp, if_pos hp]
      exact hu.walk false (hin ds (by simp [entered, hp]))
    · rw [if_neg hp, if_neg hp, h.namedRelation]
      simpa [misleads, misleadsMember, subquery?, hp] using hclear
  · rw [h.namedRelation (by simpa [misleads] using hclear)]
  · rename_i he
    obtain rfl : e = false := by simpa using he
    rw [h.realName, hu.walk false (hin ds (by simp [entered]))]
  · rename_i he
    obtain rfl : e = false := by simpa using he
    rw [firstCallName?_eq, firstCallName?_eq]
    rcases h.firstCall? with ⟨hnone, hnone'⟩ | ⟨cs, cs', hcs, hcs', hcall⟩
    · rw [hnone, hnone']
      exact hu.walk false (hin ds (by simp [entered, hnone]))
    · have hschema : schemaCommented ds = false := by simpa [misleads, hcs] using hclear
      have hfirst := hu.firstCall (by simpa [hcs, entered] using hin)
      simp only [hcs, hcs', Option.map_some, hcall.realName, h.parentName hschema, hfirst]
  · rename_i hcall hname hlist _ _
    obtain ⟨hinto, -⟩ := walked_into hcall hname hlist ds
    exact hu.walk false (hin ds (by simp [hinto]))

theorem Unmoved.member (h : Uncommented ds ds') (hu : Unmoved ds ds')
    (hclear : misleadsMember (.group k ds) = false)
    (hin : ∀ cs ∈ subquery? (.group k ds), Clear false cs) :
    (subquery? (.group k ds')).elim (.ok ⟨memberRelations (.group k ds'), []⟩) (Sql.walk false) =
      (subquery? (.group k ds)).elim (.ok ⟨memberRelations (.group k ds), []⟩) (Sql.walk false) := by
  rw [subquery?, subquery?, memberRelations, memberRelations, h.holdsParenthesis]
  by_cases hq : (k != .call && holdsParenthesis ds) = true
  · simp only [if_pos hq, Option.elim_some]
    exact hu.walk false (hin ds (by simp [subquery?, hq]))
  · simp only [if_neg hq, Option.elim_none]
    split
    · rename_i hname
      rw [h.namedRelation]
      simpa [misleadsMember, subquery?, hq, hname] using hclear
    · rfl

theorem walk_leaves (h : ∀ t ∈ ts, t.isGroup = false) : walk e ts = .ok .none := by
  induction ts generalizing e with
  | nil => rfl
  | cons t rest ih =>
    cases t with
    | leaf token => rw [walk_leaf, ih fun t ht => h t (List.mem_cons_of_mem _ ht)]
    | group k children => cases h _ List.mem_cons_self

theorem walkTree_comment (h : isComment t = true) : walkTree e t = .ok .none := by
  cases t with
  | leaf token => rfl
  | group k children =>
    obtain rfl := isComment_kind h
    have hwalk : walkTree e (.group .comment children) = walk false children := by cases e <;> rfl
    rw [isComment, Bool.and_eq_true, List.all_eq_true] at h
    rw [hwalk]
    refine walk_leaves fun t ht => ?_
    cases t with
    | leaf token => rfl
    | group k' members => cases h.2 _ ht

theorem expectedAfter_comment (h : isComment t = true) (hclear : misleads e t = false) :
    expectedAfter e t = e := by
  cases t with
  | leaf token =>
    obtain hk : token.kind = .comment := eq_of_beq h
    simp [expectedAfter, Token.isPassedOver, hk]
  | group k children =>
    obtain rfl := isComment_kind h
    exact hclear.symm

theorem walkMembers_comment (h : isComment t = true) (hclear : misleadsMember t = false) :
    walkMembers (t :: ts) = walkMembers ts := by
  cases t with
  | leaf token => cases h.symm.trans hclear
  | group k children =>
    obtain rfl := isComment_kind h
    rw [isComment, Bool.and_eq_true, List.all_eq_true] at h
    have hleaves : holdsParenthesis children = false := by
      refine List.any_eq_false.mpr fun t ht => ?_
      cases t with
      | leaf token => simp [Tree.isKind]
      | group k' members => cases h.2 _ ht
    rw [walkMembers_group, subquery?, hleaves, memberRelations, hleaves]
    exact none_bind _

theorem clear_nil : Clear e [] :=
  fun _ _ h => absurd h not_reached_nil

theorem clear_cons : Clear e (t :: ts) ↔ misleads e t = false ∧ (∀ ds ∈ entered e t, Clear false ds) ∧
    Clear (expectedAfter e t) ts := by
  constructor
  · exact fun h => ⟨h _ _ .here, fun ds hds e' u hu => h _ _ (.inside hds hu),
      fun e' u hu => h _ _ (.later hu)⟩
  · rintro ⟨hhere, hinside, hlater⟩ e' u hu
    rcases reached_cons.mp hu with ⟨rfl, rfl⟩ | ⟨ds, hds, hu⟩ | hu
    · exact hhere
    · exact hinside ds hds e' u hu
    · exact hlater e' u hu

theorem unmoved (h : Uncommented ts ts') : Unmoved ts ts' := by
  induction h with
  | nil => exact ⟨fun _ _ => rfl, fun _ => rfl, fun _ _ => rfl⟩
  | @drop t ts ts' ht _ ih =>
    refine ⟨fun e hclear => ?_, fun hclear => ?_, fun hbare hclear => ?_⟩
    · obtain ⟨hhere, -, hlater⟩ := clear_cons.mp hclear
      rw [expectedAfter_comment ht hhere] at hlater
      rw [walk_cons, walkTree_comment ht, expectedAfter_comment ht hhere, none_bind, ih.walk e hlater]
    · have hcall : ∀ ds, t = .group .call ds → False := by
        rintro ds rfl
        cases isComment_kind ht
      rw [firstCall?.eq_3 _ _ hcall] at hclear
      rw [walkFirstCall.eq_3 _ _ hcall, ih.firstCall hclear]
    · rw [List.any_cons, Bool.or_eq_false_iff] at hbare
      rw [walkMembers_comment ht hbare.1]
      exact ih.members hbare.2 fun ds hds => hclear ds (by simp_all)
  | @leaf ts ts' token _ ih =>
    refine ⟨fun e hclear => ?_, fun hclear => ih.firstCall hclear, fun hbare hclear => ?_⟩
    · rw [walk_leaf, walk_leaf, ih.walk _ (clear_cons.mp hclear).2.2]
    · rw [List.any_cons, Bool.or_eq_false_iff] at hbare
      rw [walkMembers, walkMembers, ih.members hbare.2 hclear]
  | @group ds ds' ts ts' k hds hts ihd ih =>
    refine ⟨fun e hclear => ?_, fun hclear => ?_, fun hbare hclear => ?_⟩
    · obtain ⟨hhere, hinside, hlater⟩ := clear_cons.mp hclear
      have hafter : ∀ cs, expectedAfter e (.group k cs) = false := fun _ => rfl
      rw [hafter] at hlater
      rw [walk_cons, walk_cons, ihd.walkTree hds hhere hinside, hafter, hafter, ih.walk _ hlater]
    · by_cases hk : k = .call
      · subst hk
        exact ihd.walk false (hclear ds rfl)
      · have hcall : ∀ cs cs', Tree.group k cs = .group .call cs' → False := by
          rintro _ _ ⟨⟩
          exact hk rfl
        rw [firstCall?.eq_3 _ _ (hcall _)] at hclear
        rw [walkFirstCall.eq_3 _ _ (hcall _), walkFirstCall.eq_3 _ _ (hcall _), ih.firstCall hclear]
    · rw [List.any_cons, Bool.or_eq_false_iff] at hbare
      rw [List.filterMap_cons] at hclear
      rw [walkMembers_group, walkMembers_group, ihd.member hds hbare.1, ih.members hbare.2]
      · exact fun cs hcs => hclear cs (by split <;> simp [hcs])
      · exact fun cs hcs => hclear cs (by rw [Option.mem_def.mp hcs]; exact List.mem_cons_self)

/-- Taking comments out of trees changes nothing that a walk finds in them, unless one
is in the way at a tree that the walk comes to. A group of comments where a relation is
expected always hides what comes next. -/
theorem walk_uncommented (h : Uncommented ts ts') (hclear : Clear false ts) :
    walk false ts' = walk false ts ∧
      ∀ c us, isComment c = true → c.isGroup = true → walk true (c :: us) = walk false us := by
  refine ⟨(unmoved h).walk false hclear, fun c us hc hgroup => ?_⟩
  rw [walk_cons, walkTree_comment hc, none_bind]
  cases c with
  | leaf token => cases hgroup
  | group k children => rfl

def remarked : List Tree :=
  [.group .comment [.leaf ⟨.comment, "/* zero */"⟩, .leaf ⟨.lineEnd, "\n"⟩],
    .leaf ⟨.dml, "select"⟩,
    .group .call [.group .identifier [.leaf ⟨.name, "f"⟩],
      .group .parenthesis [.leaf ⟨.punctuation, "("⟩, .group .identifier [.leaf ⟨.name, "x"⟩],
        .leaf ⟨.comment, "-- one\n"⟩, .leaf ⟨.punctuation, ")"⟩]],
    .group .comment [.leaf ⟨.comment, "/* two */"⟩],
    .leaf ⟨.keyword, "from"⟩,
    .group .identifier [.leaf ⟨.name, "app"⟩, .leaf ⟨.punctuation, "."⟩,
      .group .comment [.leaf ⟨.comment, "/* three */"⟩], .leaf ⟨.name, "users"⟩]]

theorem walk_uncommented_remarked : Clear false remarked ∧
    walk false (withoutComments remarked) = walk false remarked ∧
    (walk false remarked).toOption = some ⟨[⟨some "app", some "users"⟩], [⟨none, some "f"⟩]⟩ := by
  have hclear : Clear false remarked := by
    have hselect : announcesRelation "select" = false := by decide +kernel
    have hfrom : announcesRelation "from" = true := by decide +kernel
    have happ : schemaCommented [.leaf ⟨.name, "app"⟩, .leaf ⟨.punctuation, "."⟩,
      .group .comment [.leaf ⟨.comment, "/* three */"⟩], .leaf ⟨.name, "users"⟩] = false := by
        decide +kernel
    simp [remarked, clear_cons, clear_nil, misleads, misleadsMember, happ, entered, expectedAfter,
      firstCall?, holdsParenthesis, Token.isPassedOver, TokenKind.isBlank, TokenKind.isKeyword, hselect,
      hfrom, Tree.isKind]
  exact ⟨hclear, (walk_uncommented (uncommented_all remarked) hclear).1, by decide +kernel⟩

theorem comment_hides_relation : ∃ ts ∈ Parser.parse "SELECT * FROM /* c */ app.users",
    Uncommented ts (withoutComments ts) ∧ walk false ts = .ok .none ∧
      walk false (withoutComments ts) = .ok (.relation ⟨some "app", some "users"⟩) := by
  have hrun : ((Parser.parse "SELECT * FROM /* c */ app.users").any fun ts =>
      (walk false ts).toOption == some .none && (walk false (withoutComments ts)).toOption ==
        some (.relation ⟨some "app", some "users"⟩)) = true := by decide +kernel
  obtain ⟨ts, hts, hwalks⟩ := List.any_eq_true.mp hrun
  rw [Bool.and_eq_true, beq_iff_eq, beq_iff_eq, toOption_eq_some, toOption_eq_some] at hwalks
  exact ⟨ts, hts, uncommented_all ts, hwalks⟩

end CatalogPlan.Sql
