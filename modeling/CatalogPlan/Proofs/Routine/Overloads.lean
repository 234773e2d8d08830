import CatalogPlan.Proofs.Routine
import CatalogPlan.Proofs.Sorting
import CatalogPlan.Proofs.Sql.Calls

/-!
# Calls in routine bodies

The name of a call stands for the routines that have the first of its canonical
forms as their name without arguments. A routine whose body is searched depends on
all of them.
-/

namespace CatalogPlan.Routine

open Sql (Parser references callsOf callNames passedOver Meet WrittenName)

-- ---------------------------------------------------------------------------
-- What a name stands for
-- ---------------------------------------------------------------------------

/-- Of the canonical forms of a written name, one for each schema, the first that is
among the keys is the given one. -/
def StandsFor (keys schemas : List String) (w : WrittenName) (key : String) : Prop :=
  ∃ name before after, w.name = some name ∧
    candidates (searchPath schemas w.schema) name = .ok (before ++ key :: after) ∧
    key ∈ keys ∧ ∀ other ∈ before, other ∉ keys

theorem NameTable.firstOf_cons {key : Identity → String} {is : List Identity} {name : String}
    {names : List String} : (fill key is).firstOf (name :: names) =
      if name ∈ is.map key then is.filter fun i => key i == name else (fill key is).firstOf names := by
  rw [firstOf, List.findSome?_cons, lookup_fill]
  by_cases hname : name ∈ is.map key
  · obtain ⟨j, hj, rfl⟩ := List.mem_map.mp hname
    have hsome : (is.filter fun i => key i == key j) ≠ [] :=
      List.ne_nil_of_mem (List.mem_filter.mpr ⟨hj, beq_self_eq_true _⟩)
    rw [if_pos hname, nonempty?, if_neg (by simpa using hsome)]
    rfl
  · have hnone : (is.filter fun i => key i == name) = [] :=
      List.filter_eq_nil_iff.mpr fun j hj heq => hname (List.mem_map.mpr ⟨j, hj, eq_of_beq heq⟩)
    rw [if_neg hname, hnone]
    rfl

theorem NameTable.mem_firstOf {key : Identity → String} {is : List Identity} {names : List String} :
    i ∈ (fill key is).firstOf names ↔ i ∈ is ∧ ∃ before after, names = before ++ key i :: after ∧
      ∀ other ∈ before, other ∉ is.map key := by
  induction names with
  | nil => simp [firstOf]
  | cons name rest ih =>
    rw [firstOf_cons]
    by_cases hname : name ∈ is.map key
    · rw [if_pos hname, List.mem_filter, beq_iff_eq]
      refine and_congr_right fun _ => ⟨?_, ?_⟩
      · rintro rfl
        exact ⟨[], rest, rfl, by simp⟩
      · rintro ⟨before, after, hsplit, hfree⟩
        cases before with
        | nil => exact (List.cons.inj hsplit).1.symm
        | cons first before =>
          obtain ⟨rfl, -⟩ := List.cons.inj hsplit
          exact absurd hname (hfree name (by simp))
    · rw [if_neg hname, ih]
      refine and_congr_right fun hi => ⟨?_, ?_⟩
      · rintro ⟨before, after, rfl, hfree⟩
        exact ⟨name :: before, after, rfl, List.forall_mem_cons.mpr ⟨hname, hfree⟩⟩
      · rintro ⟨before, after, hsplit, hfree⟩
        cases before with
        | nil =>
          obtain ⟨rfl, -⟩ := List.cons.inj hsplit
          exact absurd (List.mem_map_of_mem hi) hname
        | cons first before =>
          obtain ⟨rfl, rfl⟩ := List.cons.inj hsplit
          exact ⟨before, after, rfl, fun other ho => hfree other (List.mem_cons_of_mem _ ho)⟩

theorem mem_lookedUp_fill {key : Identity → String} {is : List Identity} :
    i ∈ lookedUp (NameTable.fill key is) schemas w ↔
      i ∈ is ∧ StandsFor (is.map key) schemas w (key i) := by
  simp only [mem_lookedUp, NameTable.mem_firstOf, StandsFor]
  constructor
  · rintro ⟨name, _, hname, hnames, hi, before, after, rfl, hfree⟩
    exact ⟨hi, name, before, after, hname, hnames, List.mem_map_of_mem hi, hfree⟩
  · rintro ⟨hi, name, before, after, hname, hnames, -, hfree⟩
    exact ⟨name, _, hname, hnames, hi, before, after, rfl, hfree⟩

def routineKeys (batches : Batches) : List String :=
  (routinesOf (arrivals batches)).map baseName

theorem routine_mem_bodyTargets (hw : w ∈ found.functions) (hi : i ∈ routinesOf (arrivals batches))
    (hs : StandsFor (routineKeys batches) schemas w (baseName i)) :
    ∃ j ∈ bodyTargets (Known.ofBatches batches) schemas found, j.address = i.address := by
  have hmem : i ∈ ((inLookUpOrder found.functions).map
      (lookedUp (Known.ofBatches batches).routines schemas)).flatten := by
    rw [ofBatches_eq]
    refine List.mem_flatten.mpr ⟨_, List.mem_map_of_mem ?_, mem_lookedUp_fill.mpr ⟨hi, hs⟩⟩
    exact mem_sortOn.mpr ((sortBy_perm _ _).mem_iff.mpr hw)
  obtain ⟨j, hj, hsame⟩ := distinctIdentities_covers (List.mem_append_right _ hmem)
  exact ⟨j, hj, Identity.same_iff.mp hsame⟩

-- ---------------------------------------------------------------------------
-- Dependencies
-- ---------------------------------------------------------------------------

/-- The calls that are found in a text are all but those in what is passed over, and
a routine depends on every other one that a call found in its body stands for. -/
theorem calls_depended_on [Parser] (batches : Batches) :
    (∀ sql r, references sql = .ok r → ∀ n, n ∈ callsOf sql ↔ (∃ w ∈ r.functions, w.name = n) ∨
      Meet (Parser.parse sql) fun e t => n ∈ callNames (passedOver e t)) ∧
    ∀ o o' sql schemas r, searchedBody? o = some (.text sql) → bodySchemas o.identity = .ok schemas →
      references sql = .ok r → (augment (Known.ofBatches batches) o).result = .ok o' →
      ∀ w ∈ r.functions, ∀ k ∈ arrivals batches, k.kind = .routine →
        StandsFor (routineKeys batches) schemas w (baseName k.identity) →
        k.identity.address ≠ o.identity.address →
          (k.identity.address, some .referential) ∈ o'.dependencies.map Dependency.point := by
  refine ⟨fun sql r hr n => Sql.mem_callsOf hr, ?_⟩
  intro o o' sql schemas r hbody hschemas hr haug w hw k hk hkind hs hother
  rcases augment_ok.mp haug with ⟨hnone, -⟩ | ⟨sql', schemas', found, hbody', hschemas', hfound, -, rfl⟩
  · rw [hbody] at hnone
    cases hnone
  · obtain rfl : sql = sql' := Value.text.inj (Option.some.inj (hbody.symm.trans hbody'))
    obtain rfl : schemas = schemas' := Except.ok.inj (hschemas.symm.trans hschemas')
    obtain rfl : r = found := Except.ok.inj (hr.symm.trans hfound)
    obtain ⟨j, hj, haddress⟩ := routine_mem_bodyTargets hw (mem_routinesOf.mpr ⟨k, hk, hkind, rfl⟩) hs
    refine mem_make_points.mpr ⟨?_, hother⟩
    simp only [List.map_append, List.mem_append, bodyDependencies, List.map_map, List.mem_map]
    exact .inr ⟨j, hj, by simp [Dependency.point, haddress]⟩

def booking : Object :=
  ⟨⟨.routine, .name "app.book()"⟩,
    [("language", .text "sql"), ("source", .text "SELECT post(app.rate(1))")], [], none⟩

def ledgers : Batches :=
  [("function_or_procedure",
    [booking, ⟨⟨.routine, .name "app.rate(integer)"⟩, [], [], none⟩,
      ⟨⟨.routine, .name "app.rate(text)"⟩, [], [], none⟩,
      ⟨⟨.routine, .name "public.post(numeric)"⟩, [], [], none⟩])]

theorem calls_depended_on_ledgers : ∃ o' r,
    (augment (Known.ofBatches ledgers) booking).result = .ok o' ∧
      references "SELECT post(app.rate(1))" = .ok r ∧
      (∀ n ∈ [some "post", some "rate"],
        n ∈ callsOf "SELECT post(app.rate(1))" ∧ ∃ w ∈ r.functions, w.name = n) ∧
      ∀ k ∈ (arrivals ledgers).tail,
        (k.identity.address, some .referential) ∈ o'.dependencies.map Dependency.point := by
  obtain ⟨hcalls, hdepends⟩ := calls_depended_on ledgers
  let post : WrittenName := ⟨none, some "post"⟩
  let rate : WrittenName := ⟨some "app", some "rate"⟩
  have hrun : (references "SELECT post(app.rate(1))").toOption =
      some ⟨[], [post, rate]⟩ := by decide +kernel
  have hr := toOption_eq_some.mp hrun
  have hschemas : (bodySchemas booking.identity).toOption = some ["app", "public"] := by decide +kernel
  obtain ⟨o', ho'⟩ := isOk_iff.mp
    (show (augment (Known.ofBatches ledgers) booking).result.isOk by decide +kernel)
  have hpost : StandsFor (routineKeys ledgers) ["app", "public"] post "public.post" :=
    ⟨"post", ["app.post"], [], rfl, toOption_eq_some.mp (by decide +kernel), by decide, by decide⟩
  have hrate : StandsFor (routineKeys ledgers) ["app", "public"] rate "app.rate" :=
    ⟨"rate", [], [], rfl, toOption_eq_some.mp (by decide +kernel), by decide, by decide⟩
  have hbook := hdepends booking o' _ _ _ rfl (toOption_eq_some.mp hschemas) hr ho'
  refine ⟨o', _, ho', hr, ?_, ?_⟩
  · intro n hn
    have hw : ∃ w ∈ [post, rate], w.name = n := by
      revert n
      decide
    exact ⟨(hcalls _ _ hr n).mpr (.inl hw), hw⟩
  · intro k hk
    have hall := hk
    simp only [ledgers, arrivals, List.flatMap_cons, List.flatMap_nil, List.append_nil, List.tail_cons,
      List.mem_cons, List.not_mem_nil, or_false] at hk
    rcases hk with rfl | rfl | rfl
    · exact hbook rate (by simp) _ (List.mem_of_mem_tail hall) rfl hrate (by decide)
    · exact hbook rate (by simp) _ (List.mem_of_mem_tail hall) rfl hrate (by decide)
    · exact hbook post (by simp) _ (List.mem_of_mem_tail hall) rfl hpost (by decide)

theorem call_of_relation_lost : some "f" ∈ callsOf "SELECT * FROM app.f(1)" ∧
    ∃ r, references "SELECT * FROM app.f(1)" = .ok r ∧ ¬∃ w ∈ r.functions, w.name = some "f" := by
  have hrun : (references "SELECT * FROM app.f(1)").toOption = some ⟨[⟨some "app", some "f"⟩], []⟩ := by
    decide +kernel
  exact ⟨by decide +kernel, _, toOption_eq_some.mp hrun, by simp⟩

end CatalogPlan.Routine
