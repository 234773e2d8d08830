import CatalogPlan.Identity.Normalize
import CatalogPlan.Proofs.Identity
import CatalogPlan.Proofs.Name.Written

/-!
# Names of reported identities

The key of a reported identity keeps what was read from its names, the parts and
the arguments, or its number when it has no name. Two of them are the same
object exactly when they agree in that and in the catalog.
-/

namespace CatalogPlan

theorem Name.normalize_ok {names : List String} : Name.normalize names = .ok key ↔
    ∃ parts arguments, Name.read names = .ok (parts, arguments) ∧
      Name.write parts arguments = key := by
  simp only [Name.normalize, bind_ok, pure_ok, Prod.exists]

namespace RawIdentity

variable {raw raw' : RawIdentity} {i i' : Identity}

theorem named_ok {kind : Kind} {names : List String} : raw.named kind names = .ok i ↔
    ∃ key, Name.normalize names = .ok key ∧ ⟨kind, .name key⟩ = i := by
  unfold named
  cases Name.normalize names <;> simp

def names (raw : RawIdentity) : Except Fault (List String) := do
  let schema ← readName raw.schemaName
  let localName ← readName raw.localName
  return [schema, localName].filter (· ≠ "")

def Named (raw : RawIdentity) (parts : List String) (arguments : Option String) : Prop :=
  ∃ names, raw.names = .ok names ∧ names ≠ [] ∧ Name.read names = .ok (parts, arguments)

def Numbered (raw : RawIdentity) (n : Int) : Prop :=
  raw.names = .ok [] ∧ raw.readOid = .ok n

theorem Named.unique (h : raw.Named parts arguments) (h' : raw.Named parts' arguments') :
    parts = parts' ∧ arguments = arguments' := by
  obtain ⟨names, hnames, -, hread⟩ := h
  obtain ⟨names', hnames', -, hread'⟩ := h'
  obtain rfl := Except.ok.inj (hnames.symm.trans hnames')
  exact Prod.mk.inj (Except.ok.inj (hread.symm.trans hread'))

theorem Named.not_numbered (h : raw.Named parts arguments) : ¬ raw.Numbered n := by
  rintro ⟨hnil, -⟩
  obtain ⟨names, hnames, hne, -⟩ := h
  exact hne (Except.ok.inj (hnames.symm.trans hnil))

theorem normalize_key (h : raw.normalize = .ok i) :
    (∃ parts arguments, raw.Named parts arguments ∧ i.key = .name (Name.write parts arguments)) ∨
      ∃ n, raw.Numbered n ∧ i.key = .oid n := by
  simp only [normalize, bind_ok] at h
  obtain ⟨kind, -, schema, hs, localName, hl, h⟩ := h
  have hnames : raw.names = .ok ([schema, localName].filter (· ≠ "")) := by
    simp [names, hs, hl, bind, Except.bind, pure, Except.pure]
  have hnamed : ∀ {kind names}, [schema, localName].filter (· ≠ "") = names → names ≠ [] →
      raw.named kind names = .ok i → ∃ parts arguments,
        raw.Named parts arguments ∧ i.key = .name (Name.write parts arguments) := by
    rintro kind _ rfl hne h
    obtain ⟨key, hkey, rfl⟩ := named_ok.mp h
    obtain ⟨parts, arguments, hread, rfl⟩ := Name.normalize_ok.mp hkey
    exact ⟨parts, arguments, ⟨_, hnames, hne, hread⟩, rfl⟩
  by_cases hlocal : localName = "" <;> by_cases hschema : schema = "" <;>
    simp only [hlocal, hschema, ne_eq, not_true, not_false_iff, if_true, if_false] at h
  · split at h
    · cases h
    · simp only [bind_ok, pure_ok] at h
      obtain ⟨n, hn, rfl⟩ := h
      exact .inr ⟨n, ⟨by simpa [hlocal, hschema] using hnames, hn⟩, rfl⟩
  · exact .inl (hnamed (by simp [hlocal, hschema]) (by simp) h)
  · exact .inl (hnamed (by simp [hlocal, hschema]) (by simp) h)
  · exact .inl (hnamed (by simp [hlocal, hschema]) (by simp) h)

theorem Named.key (hn : raw.Named parts arguments) (h : raw.normalize = .ok i) :
    i.key = .name (Name.write parts arguments) := by
  rcases normalize_key h with ⟨parts', arguments', hn', hkey⟩ | ⟨n, hnumbered, -⟩
  · obtain ⟨rfl, rfl⟩ := hn.unique hn'
    exact hkey
  · exact absurd hnumbered hn.not_numbered

theorem Numbered.key (hn : raw.Numbered n) (h : raw.normalize = .ok i) : i.key = .oid n := by
  rcases normalize_key h with ⟨parts, arguments, hnamed, -⟩ | ⟨m, hm, hkey⟩
  · exact absurd hn hnamed.not_numbered
  · rw [hkey, Except.ok.inj (hm.2.symm.trans hn.2)]

/-- Two reports tell of the same name or of the same number. -/
def TellSame (raw raw' : RawIdentity) : Prop :=
  (∃ parts arguments arguments', raw.Named parts arguments ∧ raw'.Named parts arguments' ∧
    arguments.map Name.normalizeArguments = arguments'.map Name.normalizeArguments) ∨
  ∃ n, raw.Numbered n ∧ raw'.Numbered n

theorem key_eq_iff (h : raw.normalize = .ok i) (h' : raw'.normalize = .ok i') :
    i.key = i'.key ↔ raw.TellSame raw' := by
  constructor
  · intro heq
    rcases normalize_key h with ⟨parts, arguments, hn, hkey⟩ | ⟨n, hn, hkey⟩ <;>
      rcases normalize_key h' with ⟨parts', arguments', hn', hkey'⟩ | ⟨n', hn', hkey'⟩ <;>
      rw [hkey, hkey'] at heq
    · obtain ⟨rfl, harguments⟩ := Name.write_inj.mp (Key.name.inj heq)
      exact .inl ⟨parts, arguments, arguments', hn, hn', harguments⟩
    · cases heq
    · cases heq
    · obtain rfl := Key.oid.inj heq
      exact .inr ⟨n, hn, hn'⟩
  · rintro (⟨parts, arguments, arguments', hn, hn', harguments⟩ | ⟨n, hn, hn'⟩)
    · rw [hn.key h, hn'.key h', Name.write_inj.mpr ⟨rfl, harguments⟩]
    · rw [hn.key h, hn'.key h']

end RawIdentity

/-- Names have one key exactly when they read alike, and identities are one
object exactly when they are of one catalog and told by the same name or number. -/
theorem normalize_tells :
    (∀ names names' key key', Name.normalize names = .ok key → Name.normalize names' = .ok key' →
      ∃ parts arguments parts' arguments', Name.read names = .ok (parts, arguments) ∧
        Name.read names' = .ok (parts', arguments') ∧
        (key = key' ↔ parts = parts' ∧
          arguments.map Name.normalizeArguments = arguments'.map Name.normalizeArguments)) ∧
    ∀ (raw raw' : RawIdentity) i i', raw.normalize = .ok i → raw'.normalize = .ok i' →
      (i.same i' = true ↔ i.kind.catalog = i'.kind.catalog ∧ raw.TellSame raw') := by
  constructor
  · intro names names' key key' h h'
    obtain ⟨parts, arguments, hread, rfl⟩ := Name.normalize_ok.mp h
    obtain ⟨parts', arguments', hread', rfl⟩ := Name.normalize_ok.mp h'
    exact ⟨parts, arguments, parts', arguments', hread, hread', Name.write_inj⟩
  · intro raw raw' i i' h h'
    rw [Identity.same_iff, Identity.address, Identity.address, Address.mk.injEq,
      RawIdentity.key_eq_iff h h']

theorem normalize_tells_relation :
    Name.normalize ["App", "F( INT ,text)"] = .ok "app.f(int, text)" ∧
    Name.normalize ["app.f(int,TEXT)"] = .ok "app.f(int, text)" ∧
    (∃ parts arguments parts' arguments', Name.read ["App", "F( INT ,text)"] = .ok (parts, arguments) ∧
      Name.read ["app.f(int,TEXT)"] = .ok (parts', arguments') ∧ parts = parts' ∧
      arguments.map Name.normalizeArguments = arguments'.map Name.normalizeArguments) ∧
    RawIdentity.TellSame ⟨.known .table, .null, .text "App", .text "\"t\""⟩
      ⟨.known .view, .int 7, .null, .text "app.T"⟩ := by
  have hkey : Name.normalize ["App", "F( INT ,text)"] = .ok "app.f(int, text)" := by decide
  have hkey' : Name.normalize ["app.f(int,TEXT)"] = .ok "app.f(int, text)" := by decide
  obtain ⟨parts, arguments, parts', arguments', hread, hread', heq⟩ :=
    normalize_tells.1 _ _ _ _ hkey hkey'
  have htable : RawIdentity.normalize ⟨.known .table, .null, .text "App", .text "\"t\""⟩ =
      .ok ⟨.table, .name "app.t"⟩ := by rfl
  have hview : RawIdentity.normalize ⟨.known .view, .int 7, .null, .text "app.T"⟩ =
      .ok ⟨.view, .name "app.t"⟩ := by rfl
  exact ⟨hkey, hkey', ⟨parts, arguments, parts', arguments', hread, hread', heq.mp rfl⟩,
    ((normalize_tells.2 _ _ _ _ htable hview).mp (by decide)).2⟩

end CatalogPlan
