import CatalogPlan.Proofs.Graph.Exact

/-!
# Objects without their references

The references of the arrivals decide which references are taken in, and nothing
else: whether the arrivals are consistent, what a reference leads to and what it
comes to all follow from the identities, payloads and numbers.
-/

namespace CatalogPlan

def Object.bare (o : Object) : Object :=
  { o with dependencies := [] }

namespace Object

@[simp] theorem bare_identity (o : Object) : o.bare.identity = o.identity := rfl

@[simp] theorem bare_payload (o : Object) : o.bare.payload = o.payload := rfl

@[simp] theorem bare_oid (o : Object) : o.bare.oid = o.oid := rfl

@[simp] theorem bare_kind (o : Object) : o.bare.kind = o.kind := rfl

@[simp] theorem bare_bare (o : Object) : o.bare.bare = o.bare := rfl

end Object

/-- What bare arrivals give is the same for arrivals that differ in their references
alone. -/
theorem eq_of_bare {f : List Object → α} (hf : ∀ os, f (os.map Object.bare) = f os)
    (h : os.map Object.bare = os'.map Object.bare) : f os = f os' := by
  rw [← hf os, h, hf]

theorem captured?_bare (os : List Object) (i : Identity) :
    captured? (os.map Object.bare) i = (captured? os i).map Object.bare :=
  List.find?_map

theorem holder?_bare (os : List Object) (catalog : Catalog) (n : Int) :
    holder? (os.map Object.bare) catalog n = (holder? os catalog n).map Object.bare :=
  List.find?_map

theorem firsts_bare (os : List Object) : firsts (os.map Object.bare) = (firsts os).map Object.bare := by
  induction os using List.reverseRecOn with
  | nil => rfl
  | append_singleton os o ih =>
    rw [List.map_append, List.map_singleton, firsts_snoc, firsts_snoc, ih, List.any_map]
    simp only [Function.comp_def, Object.bare_identity]
    split <;> rename_i hany <;> simp [hany]

theorem registered?_bare (os : List Object) (target : Identity) :
    registered? (os.map Object.bare) target = (registered? os target).map Object.bare := by
  unfold registered?
  cases target.key with
  | name s => exact captured?_bare os target
  | oid n =>
    simp only [holder?_bare, Option.bind_map, Option.map_bind, Function.comp_def, captured?_bare,
      Object.bare_identity]

theorem isNewSchema_bare (os : List Object) (target : Identity) :
    isNewSchema (os.map Object.bare) target = isNewSchema os target := by
  simp [isNewSchema, captured?_bare]

theorem resolved?_bare (os : List Object) (target : Identity) :
    resolved? (os.map Object.bare) target = resolved? os target := by
  simp only [resolved?, registered?_bare, isNewSchema_bare]
  cases registered? os target <;> rfl

theorem edgeClassOf_bare (os : List Object) (source : Identity) (d : Dependency) (target : Identity) :
    edgeClassOf (os.map Object.bare) source d target = edgeClassOf os source d target := by
  unfold edgeClassOf
  rw [captured?_bare]
  cases d.edgeClass <;> cases captured? os source <;> rfl

theorem outcome_bare (os : List Object) (failed : List Kind) (r : Identity × Dependency) :
    outcome (os.map Object.bare) failed r = outcome os failed r := by
  simp only [outcome, resolved?_bare, edgeClassOf_bare]

theorem becomes_bare : Becomes (os.map Object.bare) o d e ↔ Becomes os o d e := by
  simp only [Becomes, resolved?_bare, captured?_bare, Option.map_eq_some_iff]
  constructor
  · rintro ⟨_, t, c, ⟨first, hfirst, rfl⟩, h⟩
    exact ⟨first, t, c, hfirst, h⟩
  · rintro ⟨first, t, c, hfirst, h⟩
    exact ⟨first.bare, t, c, ⟨first, hfirst, rfl⟩, h⟩

-- ---------------------------------------------------------------------------
-- Collecting
-- ---------------------------------------------------------------------------

section
variable {os os' : List Object}

namespace Collection

def bare (c : Collection) : Collection :=
  ⟨c.objects.map Object.bare, c.oids, []⟩

theorem addNode_bare (objects : List Object) (o : Object) :
    addNode (objects.map Object.bare) o.bare = (addNode objects o).map (List.map Object.bare) := by
  unfold addNode
  rw [List.find?_map]
  simp only [Function.comp_def, Object.bare_identity]
  cases objects.find? (·.identity.same o.identity) with
  | none => simp [Except.map]
  | some known =>
    simp only [Option.map_some, Object.bare_kind, Object.bare_payload]
    split <;> rename_i hk <;> simp [hk, Except.map]

theorem add_bare (c : Collection) (o : Object) :
    (c.add o).map bare = (c.bare.add o.bare).map bare := by
  unfold add
  simp only [bare, addNode_bare, Object.bare_identity, Object.bare_oid]
  cases o.identity.isNumeric with
  | true => rfl
  | false =>
    cases addNode c.objects o with
    | error fault => rfl
    | ok objects =>
      cases o.oid with
      | none => simp [Except.map, bind, Except.bind, pure, Except.pure, bare]
      | some n =>
        cases hn : addOid c.oids o.identity n <;>
          simp [Except.map, bind, Except.bind, pure, Except.pure, bare, hn]

theorem foldlM_add_bare (h : os.map Object.bare = os'.map Object.bare) {c c' : Collection}
    (hc : c.bare = c'.bare) : (os.foldlM add c).map bare = (os'.foldlM add c').map bare := by
  have hall : List.Forall₂ (fun o k => o.bare = k.bare) os os' := by
    rwa [← List.forall₂_eq_eq_eq, List.forall₂_map_left_iff, List.forall₂_map_right_iff] at h
  clear h
  induction hall generalizing c c' with
  | nil => simpa [Except.map, pure, Except.pure] using hc
  | @cons o k os os' hok _ ih =>
    -- One object is added to both in the same way, so that the rest starts alike.
    have hstep : (c.add o).map bare = (c'.add k).map bare := by
      rw [add_bare, hc, hok, ← add_bare]
    rw [List.foldlM_cons, List.foldlM_cons]
    cases ho : c.add o with
    | error fault =>
      cases hk : c'.add k with
      | error fault' => simpa [ho, hk, Except.map, bind, Except.bind] using hstep
      | ok next' => simp [ho, hk, Except.map] at hstep
    | ok next =>
      cases hk : c'.add k with
      | error fault' => simp [ho, hk, Except.map] at hstep
      | ok next' => exact ih (by simpa [ho, hk, Except.map] using hstep)

theorem ofObjects_bare (h : os.map Object.bare = os'.map Object.bare) :
    (ofObjects os).map bare = (ofObjects os').map bare :=
  foldlM_add_bare h rfl

theorem ofObjects_error_bare (h : os.map Object.bare = os'.map Object.bare) :
    ofObjects os = .error fault ↔ ofObjects os' = .error fault := by
  rw [← map_error (f := bare), ofObjects_bare h, map_error]

end Collection

theorem consistent_bare (h : os.map Object.bare = os'.map Object.bare) :
    Consistent os ↔ Consistent os' := by
  rw [← Collection.ofObjects_isOk, ← Collection.ofObjects_isOk, ← map_isOk (f := Collection.bare),
    Collection.ofObjects_bare h, map_isOk]

end

end CatalogPlan
