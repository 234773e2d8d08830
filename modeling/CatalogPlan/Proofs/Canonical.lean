import CatalogPlan.Capture
import CatalogPlan.Proofs.Graph.Collection
import CatalogPlan.Proofs.Name.Reported

/-!
# Canonical identities

A canonical name never reads like a number, so among identities that readers
report the sort key tells objects apart.
-/

namespace CatalogPlan

-- ---------------------------------------------------------------------------
-- Numbers as texts
-- ---------------------------------------------------------------------------

def startsNumber (c : Char) : Bool :=
  c.isDigit || c == '-'

theorem toString_nat_inj {m n : Nat} (h : m.repr = n.repr) : m = n := by
  have hdigits : Nat.toDigits 10 m = Nat.toDigits 10 n := by
    rw [← Nat.toList_repr, ← Nat.toList_repr, h]
  rw [← Nat.ofDigitChars_ten_toDigits (n := m), hdigits, Nat.ofDigitChars_ten_toDigits]

theorem repr_head (n : Nat) : ∃ c rest, n.repr.toList = c :: rest ∧ c.isDigit = true := by
  obtain ⟨c, rest, hc⟩ := List.exists_cons_of_ne_nil (Nat.toDigits_ne_nil (n := n) (b := 10))
  refine ⟨c, rest, by rw [Nat.toList_repr, hc], ?_⟩
  exact Nat.isDigit_of_mem_toDigits (by decide) (by decide) (hc ▸ List.mem_cons_self)

theorem toString_head (n : Int) : ∃ c rest, (toString n).toList = c :: rest ∧ startsNumber c = true := by
  rw [Int.toString_eq_repr, Int.repr_eq_if]
  split
  · obtain ⟨c, rest, hc, hd⟩ := repr_head n.toNat
    exact ⟨c, rest, hc, by simp [startsNumber, hd]⟩
  · exact ⟨'-', _, by rw [String.toList_append]; rfl, rfl⟩

theorem toString_int_inj {m n : Int} (h : toString m = toString n) : m = n := by
  have hminus : ∀ a b : Nat, a.repr ≠ "-" ++ b.repr := by
    intro a b heq
    obtain ⟨c, rest, hc, hd⟩ := repr_head a
    rw [heq, String.toList_append] at hc
    obtain rfl : '-' = c := (List.cons.inj hc).1
    revert hd
    decide
  rw [Int.toString_eq_repr, Int.toString_eq_repr, Int.repr_eq_if, Int.repr_eq_if] at h
  split at h <;> split at h
  · have := toString_nat_inj h
    omega
  · exact absurd h (hminus _ _)
  · exact absurd h.symm (hminus _ _)
  · have hnat := toString_nat_inj (String.append_right_inj "-" |>.mp h)
    omega

-- ---------------------------------------------------------------------------
-- Names
-- ---------------------------------------------------------------------------

namespace Name

theorem startsNumber_of_plainStart (h : isPlainStart c = true) : startsNumber c = false := by
  rw [← Bool.not_eq_true]
  simp only [isPlainStart, startsNumber, Char.isDigit, Bool.or_eq_true, Bool.and_eq_true,
    decide_eq_true_eq, beq_iff_eq, Char.le_def, UInt32.le_iff_toNat_le, ge_iff_le] at h ⊢
  rintro (⟨hlow, hhigh⟩ | rfl)
  · rcases h with h | rfl
    · have ha : 'a'.val.toNat = 97 := rfl
      have hnine : '9'.val.toNat = 57 := rfl
      omega
    · revert hlow hhigh
      decide
  · revert h
    decide

theorem write_head (parts : List String) (arguments : Option String) {c : Char} {rest : List Char}
    (h : (write parts arguments).toList = c :: rest) : startsNumber c = false := by
  rw [write_toList] at h
  cases parts with
  | nil =>
    have hc : c ∈ (listed (arguments.map normalizeArguments)).head? := by
      simpa [join] using congrArg List.head? h
    obtain rfl := listed_head _ c hc
    rfl
  | cons part later =>
    obtain ⟨d, cs, hd, hstart⟩ := quote_head part
    rw [join_cons, hd] at h
    obtain rfl := (List.cons.inj h).1
    rcases hstart with hstart | rfl
    · exact startsNumber_of_plainStart hstart
    · rfl

theorem normalize_ne_toString (h : normalize names = .ok s) (n : Int) : s ≠ toString n := by
  rintro rfl
  obtain ⟨parts, arguments, -, hw⟩ := normalize_ok.mp h
  obtain ⟨c, rest, hc, hn⟩ := toString_head n
  rw [write_head parts arguments (hw ▸ hc)] at hn
  cases hn

end Name

-- ---------------------------------------------------------------------------
-- Identities
-- ---------------------------------------------------------------------------

/-- An identity is known by its number or by a canonical name. -/
def Identity.Canonical (i : Identity) : Prop :=
  ∀ s, i.key = .name s → ∃ names, Name.normalize names = .ok s

theorem Identity.Canonical.address_of_sortKey {i j : Identity} (hi : i.Canonical)
    (hj : j.Canonical) (h : i.sortKey = j.sortKey) : i.address = j.address := by
  obtain ⟨htext, hname⟩ := Prod.mk.inj h
  refine Address.mk.injEq .. ▸ ⟨Identity.catalog_of_name hname, ?_⟩
  cases hk : i.key with
  | name s =>
    obtain ⟨names, hs⟩ := hi s hk
    cases hl : j.key with
    | name t => simpa [hk, hl, Key.text] using htext
    | oid n => exact absurd (by simpa [hk, hl, Key.text] using htext) (Name.normalize_ne_toString hs n)
  | oid m =>
    cases hl : j.key with
    | name t =>
      obtain ⟨names, ht⟩ := hj t hl
      exact absurd (by simpa [hk, hl, Key.text] using htext.symm) (Name.normalize_ne_toString ht m)
    | oid n =>
      rw [hk, hl, Key.text, Key.text] at htext
      rw [toString_int_inj htext]

-- ---------------------------------------------------------------------------
-- Records
-- ---------------------------------------------------------------------------

theorem normalize_canonical {raw : RawIdentity} (h : raw.normalize = .ok i) : i.Canonical := by
  intro s hs
  rcases RawIdentity.normalize_key h with
    ⟨parts, arguments, ⟨names, -, -, hread⟩, hkey⟩ | ⟨n, -, hkey⟩
  · obtain rfl := Key.name.inj (hs.symm.trans hkey)
    exact ⟨names, Name.normalize_ok.mpr ⟨parts, arguments, hread, rfl⟩⟩
  · cases hs.symm.trans hkey

theorem ofValue_canonical (h : Dependency.ofValue v = .ok d) : d.target.Canonical := by
  simp only [Dependency.ofValue, bind_ok] at h
  obtain ⟨raw, -, target, htarget, h⟩ := h
  have hd : d.target = target := by
    split at h
    · obtain rfl := pure_ok.mp h
      rfl
    · split at h
      · obtain rfl := pure_ok.mp h
        rfl
      · cases h
  exact hd ▸ normalize_canonical htarget

/-- An object has a canonical identity and refers to canonical identities. -/
structure Object.Canonical (o : Object) : Prop where
  identity : o.identity.Canonical
  target : ∀ d ∈ o.dependencies, d.target.Canonical

theorem make_dependencies_subset (i : Identity) (payload : Fields) (ds : List Dependency)
    (oid : Option Int) : (Object.make i payload ds oid).dependencies ⊆ ds := by
  intro d hd
  simpa using mergeDependencies_subset [] ds (List.mem_filter.mp hd).1

theorem readIdentity_key {raw : RawIdentity} (h : Object.readIdentity raw v = .ok i) :
    ∃ j, raw.normalize = .ok j ∧ i.key = j.key := by
  simp only [Object.readIdentity, bind_ok] at h
  obtain ⟨j, hj, h⟩ := h
  refine ⟨j, hj, ?_⟩
  split at h
  · rw [pure_ok.mp h]
  · split at h
    · cases h
    · split at h
      · rw [← pure_ok.mp h]
      · cases h

theorem readIdentity_canonical {raw : RawIdentity} (h : Object.readIdentity raw v = .ok i) :
    i.Canonical := by
  obtain ⟨j, hj, hkey⟩ := readIdentity_key h
  exact fun s hs => normalize_canonical hj s (hkey ▸ hs)

theorem readDependencies_canonical (h : Object.readDependencies v = .ok ds) :
    ∀ d ∈ ds, d.target.Canonical := by
  intro d hd
  unfold Object.readDependencies at h
  split at h
  · simp only [bind_ok] at h
    obtain ⟨vs, -, hvs⟩ := h
    obtain ⟨v, -, hv⟩ := forall₂_mem_right (mapM_ok.mp hvs) hd
    exact ofValue_canonical hv
  · obtain rfl := Except.ok.inj h
    cases hd

theorem ofRecord_made (h : Object.ofRecord v = .ok o) : ∃ fields raw i payload ds oid,
    v = .object fields ∧ Object.readIdentity raw (Fields.get fields "kind") = .ok i ∧
      Object.readDependencies (Fields.get fields "dependencies") = .ok ds ∧
      Object.readPayload (Fields.get fields "payload") = .ok payload ∧
      o = .make i payload ds oid := by
  unfold Object.ofRecord at h
  split at h
  · rename_i fields
    have hrest : ∀ (i : Identity) oid, (do
        let dependencies ← Object.readDependencies (Fields.get fields "dependencies")
        let payload ← Object.readPayload (Fields.get fields "payload")
        return Object.make i payload dependencies oid) = .ok o →
          ∃ payload ds, Object.readDependencies (Fields.get fields "dependencies") = .ok ds ∧
            Object.readPayload (Fields.get fields "payload") = .ok payload ∧
            o = .make i payload ds oid := by
      intro i oid hdo
      simp only [bind_ok, pure_ok] at hdo
      obtain ⟨ds, hds, payload, hpayload, rfl⟩ := hdo
      exact ⟨payload, ds, hds, hpayload, rfl⟩
    rw [bind_ok] at h
    obtain ⟨raw, -, h⟩ := h
    rw [bind_ok] at h
    obtain ⟨i, hi, h⟩ := h
    split at h
    · obtain ⟨payload, ds, hds, hpayload, rfl⟩ := hrest i none h
      exact ⟨fields, raw, i, payload, ds, none, rfl, hi, hds, hpayload, rfl⟩
    · rw [bind_ok] at h
      obtain ⟨oid, -, h⟩ := h
      obtain ⟨payload, ds, hds, hpayload, rfl⟩ := hrest i oid h
      exact ⟨fields, raw, i, payload, ds, oid, rfl, hi, hds, hpayload, rfl⟩
  · cases h

theorem ofRecord_canonical (h : Object.ofRecord v = .ok o) : o.Canonical := by
  obtain ⟨fields, raw, i, payload, ds, oid, -, hi, hds, -, rfl⟩ := ofRecord_made h
  exact ⟨readIdentity_canonical hi, fun d hd =>
    readDependencies_canonical hds d (make_dependencies_subset i payload ds oid hd)⟩

end CatalogPlan
