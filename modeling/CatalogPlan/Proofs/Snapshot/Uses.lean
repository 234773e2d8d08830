import CatalogPlan.Proofs.Snapshot.Reader

/-!
# A reader in use

A reader is opened, fetches on any threads and is closed, over and over, while the
server refuses calls as it likes. All queries see the snapshot of the latest opening,
and a reader that has been closed leaves no connection behind.
-/

namespace CatalogPlan.Snapshot

namespace Session

def fresh (parameters : Fields) (queries : List (Kind × String)) (exports : List Value)
    (rows : List (String × Value)) (refusals : Call → List Bool) : Session :=
  ⟨{ Server.start exports rows with refusals }, Reader.start parameters queries⟩

/-- The session after something was done, whatever came of it. -/
def after (s : Session) (x : Run Session α) : Session :=
  (x.run.run s).2

def exported? (s : Session) : Option Value :=
  match (open_.run.run s).1 with
  | .ok () => some (s.server.exports.headD Server.anySnapshot)
  | .error _ => none

end Session

/-- What a reader in use leads to, with whether it may be opened next and the snapshot
of its latest opening. -/
inductive Reached (start : Session) : Bool → Option Value → Session → Prop where
  | start : Reached start true none start
  | opened : Reached start true latest s →
      Reached start false s.exported? (s.after Session.open_)
  | fetched (thread : String) (kind : Kind) (schemas : Value) : Reached start shut latest s →
      Reached start shut latest (s.after (Session.fetch thread kind schemas))
  | closed : Reached start shut latest s → Reached start true latest (s.after Session.close)

-- ---------------------------------------------------------------------------
-- Single uses
-- ---------------------------------------------------------------------------

theorem Triple.after {x : Run Session α} {s : Session} {E : Scene → Prop}
    (h : Triple x s.scene (fun _ => E) E) : E (s.after x).scene := by
  have hs := h s rfl
  rw [Session.after]
  rcases hr : x.run.run s with ⟨_ | _, s'⟩ <;> rw [hr] at hs <;> exact hs

theorem get_run (s : Session) : (MonadState.get : Run Session Session).run.run s = (.ok s, s) :=
  rfl

theorem isUsable_run (n : Nat) (s : Session) :
    (Session.isUsable n).run.run s = (.ok (s.server.isUsable n), s) :=
  rfl

theorem fresh_shut :
    Shut queries (Session.fresh parameters queries exports rows refusals).scene where
  link := nofun
  bounded n hn := by cases hn <;> contradiction
  configured := rfl
  idle n := rfl
  workers := rfl
  snapshot := rfl

namespace Shut

variable {s : Session}

theorem opened (h : Shut queries s.scene) :
    Sound queries s.exported? (s.after Session.open_).scene ∧
      Quiet s.server.notes (s.after Session.open_).scene := by
  have hs := Triple.opening h s rfl
  rw [Session.after, Session.exported?]
  rcases hr : Session.open_.run.run s with ⟨_ | _, s'⟩
  · rw [hr] at hs
    exact ⟨hs.sound, hs.quiet⟩
  · rw [hr] at hs
    exact ⟨hs.sound, hs.quiet⟩

theorem worker_run (h : Shut queries s.scene) (thread : String) :
    (Session.worker thread).run.run s = (.error .notOpen, s) := by
  have hreopen : (Session.worker.reopen thread).run.run s = (.error .notOpen, s) := by
    have hsnapshot : s.reader.snapshot = none := h.snapshot
    rw [Session.worker.reopen, run_bind, get_run]
    simp only [hsnapshot]
    rfl
  rw [Session.worker, run_bind, get_run]
  dsimp only
  split
  · rename_i n hn
    have hidle : s.server.isUsable n = false := h.idle n
    rw [run_bind, isUsable_run, hidle]
    exact hreopen
  · exact hreopen

theorem fetch_run (h : Shut queries s.scene) (thread : String) (kind : Kind) (schemas : Value) :
    ∃ fault, (Session.fetch thread kind schemas).run.run s = (.error fault, s) ∧
      (kind ∈ queries.map (·.1) → fault = .notOpen) := by
  rw [Session.fetch, run_bind, get_run]
  dsimp only
  split
  · rename_i hnone
    refine ⟨.noQuery kind, rfl, fun hkind => ?_⟩
    obtain rfl : s.reader.queries = queries := h.configured
    obtain ⟨entry, hentry, rfl⟩ := List.mem_map.mp hkind
    simpa using List.lookup_eq_none_iff.mp hnone entry hentry
  · rw [run_bind, h.worker_run thread]
    exact ⟨.notOpen, rfl, fun _ => rfl⟩

end Shut

theorem Sound.closed {s : Session} (h : Sound queries latest s.scene) :
    ∃ s', Session.close.run.run s = (.ok (), s') ∧ Shut queries s'.scene ∧
      Quiet s.server.notes s'.scene := by
  have hs := Triple.closing h s rfl
  rcases hr : Session.close.run.run s with ⟨_ | _, s'⟩
  · rw [hr] at hs
    cases hs
  · rw [hr] at hs
    exact ⟨s', rfl, hs⟩

theorem Shut.link_closed {c : Scene} (h : Shut queries c) : ∀ link ∈ c.links, link = .closed :=
  Scene.links_closed h.link h.idle

-- ---------------------------------------------------------------------------
-- All uses
-- ---------------------------------------------------------------------------

theorem Reached.sound {start : Session} (h : Reached start shut latest s)
    (hstart : Shut queries start.scene) :
    Sound queries latest s.scene ∧ (shut = true → Shut queries s.scene) := by
  induction h with
  | start => exact ⟨hstart.sound none, fun _ => hstart⟩
  | opened h ih => exact ⟨((ih.2 rfl).opened).1, nofun⟩
  | fetched thread kind schemas h ih =>
    refine ⟨(Triple.fetching ih.1 thread kind schemas).after.1, fun hshut => ?_⟩
    obtain ⟨fault, hr, -⟩ := (ih.2 hshut).fetch_run thread kind schemas
    rw [Session.after, hr]
    exact ih.2 hshut
  | closed h ih =>
    obtain ⟨s', hr, hshut, -⟩ := ih.1.closed
    rw [Session.after, hr]
    exact ⟨hshut.sound _, fun _ => hshut⟩

/-- Every query of a catalog is on a connection that is not the leader and that had
imported the snapshot of the latest opening. A close ends all connections, and until
the next opening a fetch fails and opens none. -/
theorem queries_see_snapshot
    (h : Reached (Session.fresh parameters queries exports rows refusals) shut latest s) :
    (∀ thread kind schemas,
      Guarded latest s.server.notes (s.after (Session.fetch thread kind schemas)).scene) ∧
    (shut = true → Quiet s.server.notes (s.after Session.open_).scene) ∧
    (∃ s', Session.close.run.run s = (.ok (), s') ∧ Quiet s.server.notes s'.scene ∧
      ∀ link ∈ s'.server.links, link = .closed) ∧
    (shut = true → ∀ thread kind schemas, kind ∈ queries.map (·.1) →
      (Session.fetch thread kind schemas).run.run s = (.error .notOpen, s)) := by
  obtain ⟨hsound, hshut⟩ := h.sound fresh_shut
  refine ⟨fun thread kind schemas => ?_, fun h => (hshut h).opened.2, ?_, ?_⟩
  · exact (Triple.fetching hsound thread kind schemas).after.2
  · obtain ⟨s', hr, hclosed, hquiet⟩ := hsound.closed
    exact ⟨s', hr, hquiet, hclosed.link_closed⟩
  · intro h thread kind schemas hkind
    obtain ⟨fault, hr, hfault⟩ := (hshut h).fetch_run thread kind schemas
    rw [hr, hfault hkind]

def shopSession : Session :=
  .fresh [("dbname", .text "shop")] [(.table, "SELECT tables")] [.text "snap-1"] [] fun
    | .setSession => [false, true]
    | _ => []

def shopFetch : Run Session (List Value) :=
  Session.fetch "main" .table (.list [.text "app"])

def shopFailed : Session :=
  (shopSession.after Session.open_).after shopFetch

def shopFetched : Session :=
  shopFailed.after shopFetch

theorem queries_see_snapshot_shop :
    (Guarded (some (.text "snap-1")) shopFailed.server.notes shopFetched.scene ∧
      shopFailed.server.notes.any Note.isQuery = false ∧
      shopFetched.server.notes.any Note.isQuery = true) ∧
    ((∀ link ∈ (shopFetched.after Session.close).server.links, link = .closed) ∧
      (shopFetched.after Session.close).server.links.length = 3) ∧
    shopFetch.run.run (shopFetched.after Session.close) =
      (.error .notOpen, shopFetched.after Session.close) := by
  have hfailed : Reached shopSession false (some (.text "snap-1")) shopFailed :=
    .fetched "main" .table (.list [.text "app"]) (.opened .start)
  have hfetched : Reached shopSession false (some (.text "snap-1")) shopFetched :=
    hfailed.fetched "main" .table (.list [.text "app"])
  obtain ⟨hguarded, -⟩ := queries_see_snapshot hfailed
  obtain ⟨-, -, ⟨s', hr, -, hclosed⟩, -⟩ := queries_see_snapshot hfetched
  obtain ⟨-, -, -, hfails⟩ := queries_see_snapshot hfetched.closed
  obtain rfl : shopFetched.after Session.close = s' := congrArg Prod.snd hr
  exact ⟨⟨hguarded .., rfl, rfl⟩, ⟨hclosed, rfl⟩, hfails rfl "main" .table _ (by decide)⟩

end CatalogPlan.Snapshot
