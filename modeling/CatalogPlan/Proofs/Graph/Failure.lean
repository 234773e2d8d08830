import CatalogPlan.Proofs.Canonical
import CatalogPlan.Proofs.Faults
import CatalogPlan.Proofs.Name.Qualified

/-!
# How a build fails

A build is said to fail when an object is malformed, when objects disagree and when a
capture that is needed failed. It also fails where an unclassified reference of a
foreign key leads to a table and the table that carries the key cannot be told: the
payload gives one of its names as something that is no text, or names no table and the
key of the constraint has arguments that cannot be split. There is no other failure.
-/

namespace CatalogPlan

variable {o : Object} {os : List Object} {fault : Fault} {v : Value} {raw : RawIdentity}
  {batches : Batches} {failed : List Kind} {failedKinds : List Value}

namespace Fault

def isDocumented : Fault → Bool
  | .malformed .. | .conflict .. | .incomplete .. => true
  | _ => false

theorem isDocumented_of_inObjects {fault : Fault} (h : fault.inObjects = true) :
    fault.isDocumented = true := by
  cases fault <;> first | rfl | cases h

end Fault

-- ---------------------------------------------------------------------------
-- The table that carries a constraint
-- ---------------------------------------------------------------------------

def Value.isNoName : Value → Bool
  | .text _ => false
  | v => v.isTruthy

theorem readName_error : readName v = .error fault ↔ v.isNoName = true ∧ fault = .wrongShape .text v := by
  constructor
  · intro h
    cases v with
    | text s => cases h
    | _ =>
      simp only [readName] at h
      split at h
      · exact ⟨‹_›, (Except.error.inj h).symm⟩
      · cases h
  · rintro ⟨h, rfl⟩
    cases v with
    | text s => cases h
    | _ => exact if_pos h

theorem readName_ok (h : readName v = .ok name) : v.isNoName = false := by
  rw [← Bool.not_eq_true]
  intro hv
  rw [readName_error.mpr ⟨hv, rfl⟩] at h
  cases h

theorem normalize_table {schema localName : Value} (hfault : fault.isDocumented = false) :
    RawIdentity.normalize ⟨.known .table, .null, schema, localName⟩ = .error fault ↔
      ∃ v, [schema, localName].find? Value.isNoName = some v ∧ fault = .wrongShape .text v := by
  have hnamed : ∀ raw kind names, RawIdentity.named raw kind names ≠ .error fault := by
    intro raw kind names h
    unfold RawIdentity.named at h
    split at h
    · cases h
    · obtain rfl := Except.error.inj h
      cases hfault
  constructor
  · intro h
    rcases bind_error.mp h with h | ⟨kind, -, h⟩
    · cases h
    rcases bind_error.mp h with h | ⟨s, hs, h⟩
    · obtain ⟨hschema, rfl⟩ := readName_error.mp h
      exact ⟨schema, by simp [hschema], rfl⟩
    rcases bind_error.mp h with h | ⟨l, -, h⟩
    · obtain ⟨hlocal, rfl⟩ := readName_error.mp h
      exact ⟨localName, by simp [readName_ok hs, hlocal], rfl⟩
    split at h
    · exact absurd h (hnamed _ _ _)
    · split at h
      · exact absurd h (hnamed _ _ _)
      · obtain rfl := Except.error.inj h
        cases hfault
  · rintro ⟨v, hv, rfl⟩
    refine bind_error.mpr (.inr ⟨.table, rfl, bind_error.mpr ?_⟩)
    cases hschema : schema.isNoName with
    | true =>
      obtain rfl : schema = v := by simpa [hschema] using hv
      exact .inl (readName_error.mpr ⟨hschema, rfl⟩)
    | false =>
      rw [List.find?_cons, hschema, List.find?_singleton] at hv
      obtain ⟨hlocal, hv⟩ := Option.ite_none_right_eq_some.mp hv
      obtain rfl := Option.some.inj hv
      cases hs : readName schema with
      | error fault =>
        rw [(readName_error.mp hs).1] at hschema
        cases hschema
      | ok s => exact .inr ⟨s, rfl, bind_error.mpr (.inl (readName_error.mpr ⟨hlocal, rfl⟩))⟩

/-- Why the table that carries a constraint cannot be told, other than for a malformed
name: a name in the payload is no text, or the payload names no table and the key has
arguments that cannot be split. -/
inductive Ownerless (o : Object) : Fault → Prop
  | name {owner : Fields} {v : Value} (howner : o.payload.get "owner_table_name" = .object owner)
      (h : [Fields.get owner "schema_name", Fields.get owner "local_name"].find? Value.isNoName = some v) :
      Ownerless o (.wrongShape .text v)
  | key (hobject : ∀ owner, o.payload.get "owner_table_name" ≠ .object owner)
      (htext : ∀ s, o.payload.get "owner_table_name" ≠ .text s)
      (hkey : o.identity.key = .name (Name.write parts (some arguments)))
      (h : Name.split (Name.write parts (some arguments)) = .error f) : Ownerless o (.badName f)

def Object.Written (o : Object) : Prop :=
  ∃ parts arguments, parts ≠ [] ∧ (∀ p ∈ parts, p ≠ "") ∧
    o.identity.key = .name (Name.write parts arguments)

theorem ofRecord_written (h : Object.ofRecord v = .ok o) (hnamed : o.identity.isNumeric = false) :
    o.Written := by
  obtain ⟨fields, raw, i, payload, ds, oid, -, hi, -, -, rfl⟩ := ofRecord_made h
  obtain ⟨j, hj, hkey⟩ := readIdentity_key hi
  rcases RawIdentity.normalize_key hj with ⟨parts, arguments, ⟨names, -, hne, hread⟩, hj⟩ | ⟨n, -, hj⟩
  · obtain ⟨hparts, hempty⟩ := Name.read_ne_empty hne hread
    exact ⟨parts, arguments, hparts, hempty, hkey.trans hj⟩
  · have hnumeric : i.isNumeric = true := by rw [Identity.isNumeric, hkey, hj, Key.isNumeric]
    cases hnamed.symm.trans hnumeric

theorem ownerTable_undocumented (ho : o.Written) (hfault : fault.isDocumented = false) :
    ownerTable o = .error fault ↔ Ownerless o fault := by
  constructor
  · intro h
    unfold ownerTable at h
    split at h
    · rename_i owner howner
      obtain ⟨v, hv, rfl⟩ := (normalize_table hfault).mp h
      exact .name howner hv
    · obtain ⟨v, hv, -⟩ := (normalize_table hfault).mp h
      simp [Value.isNoName] at hv
    · rename_i hobject htext
      obtain ⟨parts, arguments, hne, hempty, hkey⟩ := ho
      rw [hkey, Key.text] at h
      split at h
      · cases h
      · rename_i f hsplit
        obtain rfl := Except.error.inj h
        cases arguments with
        | none => cases (Name.split_joined hne hempty).symm.trans hsplit
        | some arguments => exact .key hobject htext hkey hsplit
  · intro h
    unfold ownerTable
    cases h with
    | name howner hv =>
      rw [howner]
      exact (normalize_table hfault).mpr ⟨_, hv, rfl⟩
    | key hobject htext hkey hsplit =>
      split
      · exact absurd ‹_› (hobject _)
      · exact absurd ‹_› (htext _)
      · rw [hkey, Key.text, hsplit]

-- ---------------------------------------------------------------------------
-- References
-- ---------------------------------------------------------------------------

/-- A reference without a class leads from a foreign key to another table, and the table
that carries the key cannot be told. -/
structure Misled (os : List Object) (r : Identity × Dependency) (o : Object) (fault : Fault) : Prop where
  source : captured? os r.1 = some o
  unclassified : r.2.edgeClass = none
  target : ∃ t, resolved? os r.2.target = some t ∧ t.same r.1 = false ∧ t.kind = .table
  constraint : o.kind = .constraint
  foreign : isForeignKey o.payload = true
  ownerless : Ownerless o fault

theorem outcome_undocumented {r : Identity × Dependency} (hsource : captured? os r.1 = some o)
    (ho : o.Written) (hfault : fault.isDocumented = false) :
    outcome os failed r = .error fault ↔ Misled os r o fault := by
  constructor
  · intro h
    cases hres : resolved? os r.2.target with
    | none =>
      rw [outcome, hres] at h
      simp only at h
      split at h
      · cases h
      · obtain rfl := Except.error.inj h
        cases hfault
    | some t =>
      rw [outcome_of_resolved hres, edgeClassOf_captured hsource] at h
      split at h
      · cases h
      · rename_i hsame
        cases hclass : r.2.edgeClass with
        | some c =>
          rw [hclass] at h
          cases h
        | none =>
          rw [hclass, Option.elim_none, map_error] at h
          obtain ⟨hkind, htarget, hforeign, howner⟩ := defaultEdgeClass_error.mp h
          exact ⟨hsource, hclass, ⟨t, hres, by simpa using hsame, htarget⟩, hkind, hforeign,
            (ownerTable_undocumented ho hfault).mp howner⟩
  · rintro ⟨-, hclass, ⟨t, hres, hsame, htarget⟩, hkind, hforeign, howner⟩
    rw [outcome_of_resolved hres, edgeClassOf_captured hsource, hsame, if_neg Bool.false_ne_true, hclass,
      Option.elim_none, map_error]
    exact defaultEdgeClass_error.mpr
      ⟨hkind, htarget, hforeign, (ownerTable_undocumented ho hfault).mpr howner⟩

-- ---------------------------------------------------------------------------
-- Builds
-- ---------------------------------------------------------------------------

theorem written_of_captured (hcons : Consistent os)
    (hrecords : ∀ o ∈ os, ∃ record, Object.ofRecord record = .ok o) (h : captured? os i = some o) :
    o.Written := by
  have ho := (captured?_mem h).1
  obtain ⟨record, hrecord⟩ := hrecords o ho
  exact ofRecord_written hrecord (hcons.named o ho)

theorem build_undocumented (hk : Graph.readKinds failedKinds = .ok failed)
    (hrecords : ∀ o ∈ arrivals batches, ∃ record, Object.ofRecord record = .ok o)
    (hfault : fault.isDocumented = false) : (Graph.build batches failedKinds).result = .error fault ↔
      Consistent (arrivals batches) ∧ ∃ before r after o,
        orderedReferences (arrivals batches) = before ++ r :: after ∧
        (∀ b ∈ before, ∃ e, outcome (arrivals batches) failed.eraseDups b = .ok e) ∧
        Misled (arrivals batches) r o fault := by
  constructor
  · intro h
    rcases build_error.mp h with h | ⟨kinds, hkinds, h | ⟨hcons, h⟩⟩
    · cases hk.symm.trans h
    · cases hfault.symm.trans (Fault.isDocumented_of_inObjects (collection_fault _ fault h))
    · obtain rfl := Except.ok.inj (hk.symm.trans hkinds)
      obtain ⟨before, r, after, hsplit, hbefore, hr⟩ := mapM_error.mp h
      have hmem : r ∈ orderedReferences (arrivals batches) := by simp [hsplit]
      obtain ⟨⟨o, ho, hsource⟩, -⟩ := mem_orderedReferences.mp hmem
      rw [hsource] at ho
      have hwritten := written_of_captured hcons hrecords ho
      exact ⟨hcons, before, r, after, o, hsplit, hbefore, (outcome_undocumented ho hwritten hfault).mp hr⟩
  · rintro ⟨hcons, before, r, after, o, hsplit, hbefore, hmisled⟩
    have hwritten := written_of_captured hcons hrecords hmisled.source
    refine build_error.mpr (.inr ⟨failed, hk, .inr ⟨hcons, mapM_error.mpr ?_⟩⟩)
    exact ⟨before, r, after, hsplit, hbefore,
      (outcome_undocumented hmisled.source hwritten hfault).mpr hmisled⟩

/-- A build of records fails as it is said to, or at a foreign key for which the table that
carries it cannot be told. It fails there exactly when its objects are consistent and the
first reference that fails is one of such a key to another table. -/
theorem build_faults (hk : Graph.readKinds failedKinds = .ok failed)
    (hrecords : ∀ o ∈ arrivals batches, ∃ record, Object.ofRecord record = .ok o) :
    (∀ fault, (Graph.build batches failedKinds).result = .error fault → fault.isDocumented = true ∨
      ∃ o ∈ arrivals batches, o.kind = .constraint ∧ isForeignKey o.payload = true ∧ Ownerless o fault) ∧
    ∀ fault, fault.isDocumented = false → ((Graph.build batches failedKinds).result = .error fault ↔
      Consistent (arrivals batches) ∧ ∃ before r after o,
        orderedReferences (arrivals batches) = before ++ r :: after ∧
        (∀ b ∈ before, ∃ e, outcome (arrivals batches) failed.eraseDups b = .ok e) ∧
        Misled (arrivals batches) r o fault) := by
  refine ⟨fun fault h => ?_, fun fault => build_undocumented hk hrecords⟩
  cases hfault : fault.isDocumented with
  | true => exact .inl rfl
  | false =>
    obtain ⟨-, before, r, after, o, -, -, hmisled⟩ := (build_undocumented hk hrecords hfault).mp h
    exact .inr ⟨o, (captured?_mem hmisled.source).1, hmisled.constraint, hmisled.foreign, hmisled.ownerless⟩

def recordOf (kind name : String) (fields : Fields) : Value :=
  .object (("identity", .object [("catalog_kind", .text kind), ("local_name", .text name)]) :: fields)

def quotedKey : List Value :=
  [recordOf "constraint" "app.orders.fk(\")"
      [("payload", .object [("constraint_type", .text "foreign_key")]),
        ("dependencies", .list [.object [("catalog_kind", .text "table"), ("local_name", .text "app.customers")]])],
    recordOf "table" "app.customers" []]

def quotedKeyObjects : List Object :=
  [⟨⟨.constraint, .name "app.orders.fk(\")"⟩, [("constraint_type", .text "foreign_key")],
      [⟨⟨.table, .name "app.customers"⟩, none⟩], none⟩,
    ⟨⟨.table, .name "app.customers"⟩, [], [], none⟩]

theorem build_faults_quoted_key : Graph.readKinds [.text "index"] = .ok [.index] ∧
    quotedKey.mapM Object.ofRecord = .ok quotedKeyObjects ∧
    ∃ o ∈ quotedKeyObjects, o.kind = .constraint ∧ isForeignKey o.payload = true ∧
      Ownerless o (.badName (.unterminatedQuote "app.orders.fk(\")")) := by
  have hk : Graph.readKinds [.text "index"] = .ok [.index] := rfl
  have hread : quotedKey.mapM Object.ofRecord = .ok quotedKeyObjects := by rfl
  have hrecords : ∀ o ∈ arrivals [("constraint", quotedKeyObjects)],
      ∃ record, Object.ofRecord record = .ok o := by
    intro o ho
    have hmem : o ∈ quotedKeyObjects := by simpa [arrivals] using ho
    obtain ⟨record, -, hrecord⟩ := forall₂_mem_right (mapM_ok.mp hread) hmem
    exact ⟨record, hrecord⟩
  have hfault : (Graph.build [("constraint", quotedKeyObjects)] [.text "index"]).result =
      .error (.badName (.unterminatedQuote "app.orders.fk(\")")) := by rfl
  rcases (build_faults hk hrecords).1 _ hfault with h | ⟨o, ho, hforeign⟩
  · cases h
  · exact ⟨hk, hread, o, by simpa [arrivals] using ho, hforeign⟩

/-- A key that cannot be split for the table of a constraint ends the build with the fault of
the split. -/
theorem build_escapes : quotedKey.mapM Object.ofRecord = .ok quotedKeyObjects ∧
    (Graph.build [("constraint", quotedKeyObjects)] []).result =
      .error (.badName (.unterminatedQuote "app.orders.fk(\")")) ∧
    Fault.isDocumented (.badName (.unterminatedQuote "app.orders.fk(\")")) = false :=
  ⟨by rfl, by rfl, by rfl⟩

end CatalogPlan
