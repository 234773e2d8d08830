import CatalogPlan.Proofs.Graph.Exact

/-!
# Objects that have nothing to do with the others

An object without references, to which nothing refers by name or by number, is
one more object of the graph at its place in the order of arrival. All references
come to what they came to without it.
-/

namespace CatalogPlan

/-- An object has a name and no references, and neither its name nor its number is one
that some arrivals have or refer to. -/
structure Bystander (x : Object) (os : List Object) : Prop where
  named : x.identity.isNumeric = false
  silent : x.dependencies = []
  new : ∀ o ∈ os, o.identity.address ≠ x.identity.address
  unnamed : ∀ o ∈ os, ∀ d ∈ o.dependencies, d.target.address ≠ x.identity.address
  number_new : ∀ n, x.oid = some n → ∀ o ∈ os, o.kind.catalog = x.kind.catalog → o.oid ≠ some n
  unnumbered : ∀ n, x.oid = some n → ∀ o ∈ os, ∀ d ∈ o.dependencies,
    d.target.address ≠ ⟨x.kind.catalog, .oid n⟩

-- ---------------------------------------------------------------------------
-- Look-ups
-- ---------------------------------------------------------------------------

section
variable {before after : List Object} {x : Object}

theorem captured?_insert (h : i.address ≠ x.identity.address) :
    captured? (before ++ x :: after) i = captured? (before ++ after) i := by
  have hx : x.identity.same i = false := Identity.same_eq_false.mpr h.symm
  simp [captured?, hx]

theorem holder?_insert {catalog : Catalog} {n : Int}
    (h : x.oid = some n → x.kind.catalog ≠ catalog) :
    holder? (before ++ x :: after) catalog n = holder? (before ++ after) catalog n := by
  have hx : (x.kind.catalog == catalog && x.oid == some n) = false := by
    rw [Bool.and_eq_false_imp, beq_iff_eq]
    exact fun hc => beq_eq_false_iff_ne.mpr fun hn => h hn hc
  simp [holder?, hx]

theorem referencesOf_insert (h : i.address ≠ x.identity.address) :
    referencesOf (before ++ x :: after) i = referencesOf (before ++ after) i := by
  have hx : x.identity.same i = false := Identity.same_eq_false.mpr h.symm
  simp [referencesOf, hx]

end

namespace Bystander

variable {before after : List Object} {x : Object}

theorem subset (h : Bystander x os) (hs : less ⊆ os) : Bystander x less :=
  ⟨h.named, h.silent, fun o ho => h.new o (hs ho), fun o ho => h.unnamed o (hs ho),
    fun n hn o ho => h.number_new n hn o (hs ho), fun n hn o ho => h.unnumbered n hn o (hs ho)⟩

theorem captured?_eq_none (h : Bystander x os) : captured? os x.identity = none := by
  rw [captured?_eq_none_iff, List.mem_map]
  rintro ⟨o, ho, ha⟩
  exact h.new o ho ha

theorem holder?_eq_none (h : Bystander x os) (hn : x.oid = some n) :
    holder? os x.kind.catalog n = none := by
  rw [Option.eq_none_iff_forall_ne_some]
  intro o ho
  obtain ⟨hm, hc, hno⟩ := holder?_mem ho
  exact h.number_new n hn o hm hc hno

-- ---------------------------------------------------------------------------
-- Collecting
-- ---------------------------------------------------------------------------

theorem consistent (h : Bystander x (before ++ after)) (hc : Consistent (before ++ after)) :
    Consistent (before ++ x :: after) := by
  -- The bystander joins what came before it; every later arrival then joins both lists alike.
  induction after using List.reverseRecOn with
  | nil =>
    rw [List.append_nil] at h hc
    refine consistent_snoc.mpr ⟨hc, h.named, ?_, ?_⟩
    · simp [h.captured?_eq_none]
    · intro n hn
      simp [h.holder?_eq_none hn]
  | append_singleton after o ih =>
    have hsub : before ++ after ⊆ before ++ (after ++ [o]) := by simp
    have ho : o ∈ before ++ (after ++ [o]) := by simp
    rw [← List.append_assoc, consistent_snoc] at hc
    rw [← List.cons_append, ← List.append_assoc]
    refine consistent_snoc.mpr ⟨ih (h.subset hsub) hc.1, hc.2.1, ?_, ?_⟩
    · rw [captured?_insert (h.new o ho)]
      exact hc.2.2.1
    · intro n hn
      rw [holder?_insert fun hx heq => h.number_new n hx o ho heq.symm hn]
      exact hc.2.2.2 n hn

theorem firsts_insert (h : Bystander x (before ++ after)) : ∃ later,
    firsts (before ++ after) = firsts before ++ later ∧
      firsts (before ++ x :: after) = firsts before ++ x :: later := by
  induction after using List.reverseRecOn with
  | nil =>
    rw [List.append_nil] at h
    have hnone : (firsts before).any (·.identity.same x.identity) = false := by
      have hcaptured := h.captured?_eq_none
      rw [← captured?_firsts] at hcaptured
      simpa [captured?] using hcaptured
    refine ⟨[], by simp, ?_⟩
    rw [firsts_snoc, hnone]
    simp
  | append_singleton after o ih =>
    have hsub : before ++ after ⊆ before ++ (after ++ [o]) := by simp
    obtain ⟨later, hold, hnew⟩ := ih (h.subset hsub)
    have hx : x.identity.same o.identity = false :=
      Identity.same_eq_false.mpr (h.new o (by simp)).symm
    have hany : (firsts before ++ x :: later).any (·.identity.same o.identity) =
        (firsts before ++ later).any (·.identity.same o.identity) := by simp [hx]
    rw [← List.append_assoc, ← List.cons_append, ← List.append_assoc, firsts_snoc, firsts_snoc,
      hold, hnew, hany]
    cases (firsts before ++ later).any (·.identity.same o.identity) with
    | true => exact ⟨later, rfl, rfl⟩
    | false => exact ⟨later ++ [o], by simp, by simp⟩

-- ---------------------------------------------------------------------------
-- References
-- ---------------------------------------------------------------------------

theorem flatMap_filter_of_nil {xs : List α} {p : α → Bool} {f : α → List β}
    (h : ∀ a, p a = false → f a = []) : (xs.filter p).flatMap f = xs.flatMap f := by
  induction xs with
  | nil => rfl
  | cons a rest ih =>
    cases hp : p a with
    | true => simp [hp, ih]
    | false => simp [hp, ih, h a hp]

theorem referencesOf_self (h : Bystander x (before ++ after)) :
    referencesOf (before ++ x :: after) x.identity = [] := by
  have hnone : (before ++ after).filter (·.identity.same x.identity) = [] :=
    List.filter_eq_nil_iff.mpr fun o ho hs => h.new o ho (Identity.same_iff.mp hs)
  have hself : (before ++ x :: after).filter (·.identity.same x.identity) = [x] := by
    rw [List.filter_append, List.append_eq_nil_iff] at hnone
    simp [hnone.1, hnone.2]
  rw [referencesOf, hself, List.flatMap_singleton, h.silent]
  rfl

theorem orderedReferences_insert (h : Bystander x (before ++ after)) :
    orderedReferences (before ++ x :: after) = orderedReferences (before ++ after) := by
  let other (i : Identity) : Bool := !i.same x.identity
  obtain ⟨later, hold, hnew⟩ := h.firsts_insert
  have hothers : (firsts (before ++ after)).map (·.identity) =
      ((firsts (before ++ x :: after)).map (·.identity)).filter other := by
    have hkeep : ((firsts (before ++ after)).map (·.identity)).filter other =
        (firsts (before ++ after)).map (·.identity) := by
      refine List.filter_eq_self.mpr fun i hi => ?_
      obtain ⟨o, ho, rfl⟩ := List.mem_map.mp hi
      simpa [other, Identity.same_eq_false] using h.new o (firsts_subset _ ho)
    rw [← hkeep, hold, hnew]
    simp [other]
  rw [orderedReferences_eq, orderedReferences_eq, hothers]
  unfold sortIdentities
  rw [← sortOn_filter linearLe_sortKey, ← flatMap_filter_of_nil (p := other)]
  · refine List.flatMap_congr fun i hi => ?_
    have hne : i.address ≠ x.identity.address := by
      simpa [other, Identity.same_eq_false] using (List.mem_filter.mp hi).2
    rw [referencesOf_insert hne]
  · intro i hi
    have hi : i.address = x.identity.address := by simpa [other, Identity.same_iff] using hi
    unfold referencesOf
    simp only [Identity.same_congr hi]
    rw [← referencesOf, h.referencesOf_self]
    rfl

section
variable (h : Bystander x (before ++ after)) (ho : o ∈ before ++ after) (hd : d ∈ o.dependencies)
include h ho hd

theorem isNewSchema_insert :
    isNewSchema (before ++ x :: after) d.target = isNewSchema (before ++ after) d.target := by
  unfold isNewSchema
  rw [captured?_insert (h.unnamed o ho d hd)]

theorem registered?_insert :
    registered? (before ++ x :: after) d.target = registered? (before ++ after) d.target := by
  cases hkey : d.target.key with
  | name s => rw [registered?, registered?, hkey, captured?_insert (h.unnamed o ho d hd)]
  | oid n =>
    have hother : x.oid = some n → x.kind.catalog ≠ d.target.kind.catalog := by
      intro hx hc
      refine h.unnumbered n hx o ho d hd ?_
      rw [Identity.address, hkey, hc]
    rw [registered?_numbered hkey, registered?_numbered hkey, holder?_insert hother]
    cases hh : holder? (before ++ after) d.target.kind.catalog n with
    | none => rfl
    | some k => exact captured?_insert (h.new k (holder?_mem hh).1)

theorem resolved?_insert :
    resolved? (before ++ x :: after) d.target = resolved? (before ++ after) d.target := by
  unfold resolved?
  rw [h.registered?_insert ho hd, h.isNewSchema_insert ho hd]

end

section
variable (h : Bystander x (before ++ after)) (hr : r ∈ orderedReferences (before ++ after))
include h hr

theorem outcome_insert (failed : List Kind) :
    outcome (before ++ x :: after) failed r = outcome (before ++ after) failed r := by
  obtain ⟨o, ho, ha, hd, -⟩ := arrival_of_reference hr
  have hsource : r.1.address ≠ x.identity.address := ha ▸ h.new o ho
  unfold outcome edgeClassOf
  rw [h.resolved?_insert ho hd, captured?_insert hsource]

theorem dropped?_insert : dropped? (before ++ x :: after) r = dropped? (before ++ after) r := by
  obtain ⟨o, ho, -, hd, -⟩ := arrival_of_reference hr
  unfold dropped?
  rw [h.resolved?_insert ho hd]

end

theorem newSchemas_insert (h : Bystander x (before ++ after)) :
    newSchemas (before ++ x :: after) (orderedReferences (before ++ after)) =
      newSchemas (before ++ after) (orderedReferences (before ++ after)) := by
  unfold newSchemas
  refine congrArg distinctIdentities (List.filter_congr fun t ht => ?_)
  obtain ⟨r, hr, rfl⟩ := List.mem_map.mp ht
  obtain ⟨o, ho, -, hd, -⟩ := arrival_of_reference hr
  exact h.isNewSchema_insert ho hd

-- ---------------------------------------------------------------------------
-- Building
-- ---------------------------------------------------------------------------

/-- The graph with a bystander is the one without it and one more object. -/
theorem build {batches batches' : Batches} {failedKinds : List Value}
    (h : Bystander x (before ++ after)) (hb : arrivals batches = before ++ after)
    (hb' : arrivals batches' = before ++ x :: after)
    (hg : (Graph.build batches failedKinds).result = .ok g) :
    ∃ known later, g.objects = known ++ later ∧
      (Graph.build batches' failedKinds).result = .ok { g with objects := known ++ x :: later } := by
  obtain ⟨failed, hfailed, hcons, found, hfound, rfl⟩ := build_ok.mp hg
  rw [hb] at hcons hfound ⊢
  obtain ⟨later, hold, hnew⟩ := h.firsts_insert
  refine ⟨firsts before, later ++ (newSchemas (before ++ after)
    (orderedReferences (before ++ after))).map Graph.syntheticSchema, ?_, ?_⟩
  · simp only [assembled, hold, List.append_assoc]
  · refine build_ok.mpr ⟨failed, hfailed, hb' ▸ h.consistent hcons, found, ?_, ?_⟩
    · rw [hb', h.orderedReferences_insert, ← hfound]
      exact mapM_congr fun r hr => h.outcome_insert hr _
    · rw [hb', h.orderedReferences_insert]
      unfold assembled
      rw [h.newSchemas_insert, hnew, List.filterMap_congr fun r hr => h.dropped?_insert hr]
      simp

end Bystander

end CatalogPlan
