import CatalogPlan.Proofs.Snapshot.Uses
import CatalogPlan.Snapshot.Plan

/-!
# What is done while a reader is open

Every connection that is opened through a reader is its leader or one of its workers
at once, before anything else can fail, so closing the reader ends them all, whatever
its threads did and wherever they were stopped. That is no help where opening the
reader fails: it is not closed then, and a leader that was connected stays.
-/

namespace CatalogPlan.Snapshot

/-- Every connection that can be used is the leader or a worker of the reader, and the
server has dropped none. -/
structure Held (c : Scene) : Prop where
  link : ∀ link ∈ c.links, link ≠ .dropped
  owned : ∀ n, c.isUsable n = true → c.reader.leader = some n ∨ n ∈ c.reader.workers

/-- A call opens and closes no connection, whether it is refused or not. -/
def Server.KeepsLinks (x : Run Server α) : Prop :=
  ∀ s, (x.run.run s).2.links = s.links

open Session in
/-- Programs that have connections through a reader only. They are put together from
single calls, so what several threads do may alternate call by call, and any call may
be refused and the fault caught. A connection is a worker from the moment it is opened. -/
inductive Using : {α : Type} → Run Session α → Prop where
  | pure (a : α) : Using (Pure.pure a)
  | throw (fault : Fault) : Using (MonadExcept.throw fault : Run Session α)
  | get : Using MonadState.get
  | bind {f : α → Run Session β} (hx : Using x) (hf : ∀ a, Using (f a)) : Using (x >>= f)
  | outcome (hx : Using x) : Using (Run.outcome x)
  | call (hx : Server.KeepsLinks x) : Using (onServer x)
  | change (hf : ∀ r, (f r).leader = r.leader ∧ (f r).workers = r.workers) :
    Using (changeReader f)
  | hire {f : Nat → Run Session α} (hf : ∀ n, Using (f n)) : Using (do
    let n ← newConnection
    changeReader fun r => { r with workers := r.workers ++ [n] }
    f n)
  | connect : Using Session.connect
  | disconnect : Using Session.disconnect
  | close : Using Session.close

-- ---------------------------------------------------------------------------
-- Calls
-- ---------------------------------------------------------------------------

namespace Server.KeepsLinks

theorem bind {x : Run Server α} {f : α → Run Server β} (hx : KeepsLinks x)
    (hf : ∀ a, KeepsLinks (f a)) : KeepsLinks (x >>= f) := by
  intro s
  have hs := hx s
  rw [run_bind]
  rcases hr : x.run.run s with ⟨fault | a, s'⟩
  · rw [hr] at hs
    exact hs
  · rw [hr] at hs
    exact (hf a s').trans hs

theorem attempt (call : Call) : KeepsLinks (Server.attempt call) := by
  intro s
  obtain ⟨refusals, hr | hr⟩ := attempt_run call s <;> rw [hr]

theorem note (n : Nat) (act : Act) : KeepsLinks (Server.note n act) :=
  fun _ => rfl

theorem setSession (n : Nat) : KeepsLinks (Server.setSession n) :=
  bind (attempt _) fun _ => note _ _

theorem execute (n : Nat) (query : String) (parameters : Value) :
    KeepsLinks (Server.execute n query parameters) :=
  bind (attempt _) fun _ => note _ _

theorem exported : KeepsLinks Server.exported := by
  refine bind (attempt _) fun _ s => ?_
  obtain ⟨links, notes, refusals, exports, rows⟩ := s
  cases exports <;> rfl

theorem fetchAll (query : String) : KeepsLinks (Server.fetchAll query) :=
  bind (attempt _) fun _ _ => rfl

end Server.KeepsLinks

-- ---------------------------------------------------------------------------
-- Programs
-- ---------------------------------------------------------------------------

namespace Using

theorem reading (x : Except Fault α) : Using (liftM x : Run Session α) := by
  cases x with
  | error fault => exact throw fault
  | ok a => exact pure a

theorem isUsable (n : Nat) : Using (Session.isUsable n) :=
  bind get fun s => pure (s.server.isUsable n)

theorem mapM {f : α → Run Session β} (hf : ∀ a, Using (f a)) (as : List α) :
    Using (as.mapM f) := by
  induction as with
  | nil => exact pure []
  | cons a as ih =>
    rw [List.mapM_cons]
    exact bind (hf a) fun b => bind ih fun bs => pure (b :: bs)

theorem open_ : Using Session.open_ := by
  refine bind connect fun n => bind (change fun _ => ⟨rfl, rfl⟩) fun _ => ?_
  refine bind (call (.setSession n)) fun _ => bind (call (.note n _)) fun _ => ?_
  refine bind (call (.execute n _ _)) fun _ => bind (call .exported) fun _ => ?_
  exact change fun _ => ⟨rfl, rfl⟩

theorem worker (thread : String) : Using (Session.worker thread) := by
  have hreopen : Using (Session.worker.reopen thread) := by
    refine bind get fun s => ?_
    split
    · exact throw .notOpen
    · refine hire fun n => bind (call (.setSession n)) fun _ => ?_
      refine bind (call (.note n _)) fun _ => bind (call (.execute n _ _)) fun _ => ?_
      exact bind (change fun _ => ⟨rfl, rfl⟩) fun _ => pure n
  refine bind get fun s => ?_
  split
  · rename_i n hn
    refine bind (isUsable n) fun usable => ?_
    split
    · exact pure n
    · exact hreopen
  · exact hreopen

theorem fetch (thread : String) (kind : Kind) (schemas : Value) :
    Using (Session.fetch thread kind schemas) := by
  refine bind get fun s => ?_
  split
  · exact throw _
  · refine bind (worker thread) fun n => bind (call (.note n _)) fun _ => ?_
    refine bind (reading _) fun names => bind (call (.execute n _ _)) fun _ => ?_
    refine bind (call (.fetchAll _)) fun rows => bind (reading _) fun rows => ?_
    exact mapM (fun row => bind (reading _) fun fields => pure _) rows

theorem planSchemas [Sql.Parser] (schemas : List String) (workers : Int) :
    Using (Session.planSchemas schemas workers) := by
  have hcompletion : ∀ kind, Using (Session.completion (.list (schemas.map .text)) kind) :=
    fun kind => bind (outcome (fetch _ kind _)) fun result => pure _
  refine bind (reading _) fun _ => bind get fun s => ?_
  refine bind (mapM hcompletion _) fun completions => ?_
  exact bind (reading _) fun captured => reading _

end Using

-- ---------------------------------------------------------------------------
-- Held connections
-- ---------------------------------------------------------------------------

namespace Held

variable {c c' : Scene}

theorem congr (h : Held c) (hlinks : c'.links = c.links)
    (hleader : c'.reader.leader = c.reader.leader)
    (hworkers : c'.reader.workers = c.reader.workers) : Held c' where
  link := hlinks ▸ h.link
  owned n hn := by
    rw [hleader, hworkers]
    refine h.owned n ?_
    rwa [Scene.isUsable, ← hlinks]

theorem opened {f : Reader → Reader} (h : Held c)
    (hnew : (f c.reader).leader = some c.links.length ∨ c.links.length ∈ (f c.reader).workers)
    (hold : ∀ n, c.isUsable n = true → c.reader.leader = some n ∨ n ∈ c.reader.workers →
      (f c.reader).leader = some n ∨ n ∈ (f c.reader).workers) :
    Held (c.opened.change f) where
  link link hl := by
    rcases List.mem_append.mp hl with hl | hl
    · exact h.link link hl
    · obtain rfl := List.mem_singleton.mp hl
      decide
  owned n hn := by
    rcases Scene.isUsable_opened.mp hn with rfl | hn
    · exact hnew
    · exact hold n hn (h.owned n hn)

theorem ended (h : Held c) (hended : Ended ns c c')
    (hleft : ∀ n, c.reader.leader = some n ∨ n ∈ c.reader.workers →
      n ∈ ns ∨ c'.reader.leader = some n ∨ n ∈ c'.reader.workers) : Held c' where
  link := hended.not_dropped h.link
  owned n hn := by
    obtain ⟨hu, hns⟩ := (hended.isUsable n).mp hn
    exact (hleft n (h.owned n hu)).resolve_left hns

end Held

def Scene.IsLed (c : Scene) (n : Nat) : Prop :=
  c.reader.leader = some n ∧ c.isUsable n = true

namespace Triple

variable {c : Scene}

theorem outcome {x : Run Session α} {I : Scene → Prop} (h : Triple x c (fun _ => I) I) :
    Triple (Run.outcome x) c (fun _ => I) I := by
  intro s hs
  have hx := h s hs
  show I (x.run.run s).2.scene
  rcases hr : x.run.run s with ⟨_ | _, s'⟩ <;> rw [hr] at hx <;> exact hx

theorem call {x : Run Server α} (hx : Server.KeepsLinks x) (h : Held c) :
    Triple (Session.onServer x) c (fun _ => Held) Held := by
  rintro s rfl
  have hheld : Held (Session.scene { s with server := (x.run.run s.server).2 }) :=
    h.congr (hx s.server) rfl rfl
  rw [onServer_run]
  cases (x.run.run s.server).1 <;> exact hheld

theorem of_error {x : Run Session α} {s s' : Session} {Q : α → Scene → Prop} {E : Scene → Prop}
    (h : Triple x s.scene Q E) (hrun : x.run.run s = (.error fault, s')) : E s'.scene := by
  have hs := h s rfl
  rwa [hrun] at hs

theorem connecting (h : Held c) : Triple Session.connect c
    (fun n c' => Held c' ∧ c'.IsLed n ∧ c'.reader.workers = c.reader.workers)
    (fun c' => c' = c ∧ ∀ n, ¬ c.IsLed n) := by
  have hreopen : (∀ n, ¬ c.IsLed n) → Triple Session.connect.reopen c
      (fun n c' => Held c' ∧ c'.IsLed n ∧ c'.reader.workers = c.reader.workers)
      (fun c' => c' = c ∧ ∀ n, ¬ c.IsLed n) := by
    intro hnone
    refine .bind (.connect ?_ ⟨rfl, hnone⟩)
    have hheld : Held (c.opened.change fun r => { r with leader := some c.links.length }) :=
      h.opened (.inl rfl) fun n hu hn => hn.imp (fun hleader => absurd ⟨hleader, hu⟩ (hnone n)) id
    have hnew : c.opened.isUsable c.links.length = true := Scene.isUsable_opened.mpr (.inl rfl)
    exact .bind (.changeReader (.pure ⟨hheld, ⟨rfl, hnew⟩, rfl⟩))
  refine .get fun s hs => ?_
  subst hs
  split
  · rename_i n hn
    refine .bind (.isUsable ?_)
    split
    · rename_i hu
      exact .pure ⟨h, ⟨hn, hu⟩, rfl⟩
    · rename_i hu
      refine hreopen fun k hk => hu ?_
      obtain rfl : n = k := Option.some.inj (hn.symm.trans hk.1)
      exact hk.2
  · rename_i hnone
    exact hreopen fun k hk => nomatch hnone.symm.trans hk.1

end Triple

theorem Using.held {x : Run Session α} (hx : Using x) {c : Scene} (h : Held c) :
    Triple x c (fun _ => Held) Held := by
  induction hx generalizing c with
  | pure a => exact .pure h
  | throw fault => exact .throw h
  | get =>
    rintro s rfl
    exact h
  | bind hx hf ihx ihf => exact .bind ((ihx h).mono (fun a c' h => ihf a h) fun _ => id)
  | outcome hx ih => exact .outcome (ih h)
  | call hx => exact .call hx h
  | change hf =>
    exact .changeReader (h.congr rfl (hf c.reader).1 (hf c.reader).2)
  | hire hf ih =>
    refine .bind (.connect (.bind (.changeReader (ih _ ?_))) h)
    exact h.opened (.inr (List.mem_append_right _ (List.mem_singleton_self _))) fun n _ hn =>
      hn.imp_right (List.mem_append_left _)
  | connect => exact (Triple.connecting h).mono (fun _ _ h => h.1) fun _ hc => hc.1 ▸ h
  | disconnect =>
    refine (Triple.disconnect c).mono ?_ fun _ => False.elim
    rintro - c' ⟨hended, leader, hleader, hreader⟩
    refine h.ended hended fun n hn => ?_
    rw [hreader]
    exact hn.imp (Option.mem_toList.mpr ·) .inr
  | close =>
    refine (Triple.ending c).mono ?_ fun _ => False.elim
    rintro - c' ⟨hended, -⟩
    refine h.ended hended fun n hn => .inl ?_
    simpa [or_comm, Option.mem_toList] using hn

-- ---------------------------------------------------------------------------
-- Opening and closing
-- ---------------------------------------------------------------------------

theorem Held.closed {s : Session} (h : Held s.scene) :
    ∃ s', Session.close.run.run s = (.ok (), s') ∧ ∀ link ∈ s'.server.links, link = .closed := by
  have hs := Triple.ending s.scene s rfl
  rcases hr : Session.close.run.run s with ⟨_ | _, s'⟩
  · rw [hr] at hs
    cases hs
  · rw [hr] at hs
    refine ⟨s', rfl, Scene.links_closed (hs.1.not_dropped h.link) (hs.1.idle fun n hn => ?_)⟩
    simpa [or_comm, Option.mem_toList] using h.owned n hn

/-- A reader cannot be opened because its leader cannot be connected, or else the leader
is left. -/
theorem Held.open_error {s : Session} (h : Held s.scene)
    (hopen : Session.open_.run.run s = (.error fault, s')) :
    s'.reader.workers = s.reader.workers ∧
      (((∃ fault, (Session.connect.run.run s).1 = .error fault) ∧ s'.scene = s.scene ∧
          ∀ n, ¬ s.scene.IsLed n) ∨
        (∃ n, (Session.connect.run.run s).1 = .ok n) ∧ ∃ n, s'.scene.IsLed n) := by
  have hconnect := Triple.connecting h s rfl
  rw [Session.open_, run_bind] at hopen
  rcases hr : Session.connect.run.run s with ⟨fault | n, s₁⟩
  · rw [hr] at hopen hconnect
    obtain ⟨-, rfl⟩ := Prod.mk.inj hopen
    exact ⟨congrArg (·.reader.workers) hconnect.1, .inl ⟨⟨fault, rfl⟩, hconnect⟩⟩
  · rw [hr] at hopen hconnect
    obtain ⟨-, hled, hworkers⟩ := hconnect
    have hleft : s'.reader.workers = s.reader.workers ∧ s'.scene.IsLed n := by
      -- No later call of an opening touches the leader.
      refine Triple.of_error (Q := fun _ _ => True)
        (E := fun c => c.reader.workers = s.reader.workers ∧ c.IsLed n) ?_ hopen
      refine .bind (.changeReader ?_)
      refine .bind (.setSession ?_ ⟨hworkers, hled⟩)
      refine .bind (.cursor ?_)
      refine .bind (.execute ?_ ⟨hworkers, hled⟩)
      refine .bind (.exported ?_ ⟨hworkers, hled⟩)
      exact .changeReader trivial
    exact ⟨hleft.1, .inr ⟨⟨n, rfl⟩, n, hleft.2⟩⟩

-- ---------------------------------------------------------------------------
-- The whole scope
-- ---------------------------------------------------------------------------

namespace Session

theorem whileOpen_error {x : Run Session α} (h : open_.run.run s = (.error fault, s')) :
    (whileOpen x).run.run s = (.error fault, s') := by
  rw [whileOpen, run_bind, h]

theorem whileOpen_ok {x : Run Session α} (h : open_.run.run s = (.ok (), s')) (hs : Held s'.scene)
    (hx : Using x) : ∃ s'', (whileOpen x).run.run s = ((x.run.run s').1, s'') ∧
      ∀ link ∈ s''.server.links, link = .closed := by
  have hbody : (Run.outcome x).run.run s' = (.ok (x.run.run s').1, s'.after x) := rfl
  obtain ⟨s'', hclose, hlinks⟩ := ((hx.held hs).after : Held (s'.after x).scene).closed
  refine ⟨s'', ?_, hlinks⟩
  rw [whileOpen, run_bind, h]
  dsimp only
  rw [run_bind, hbody]
  dsimp only
  rw [run_bind, hclose]
  cases (x.run.run s').1 <;> rfl

end Session

/-- What comes of doing something while a reader is open: all connections are closed in
the end, unless opening the reader failed after its leader had been connected. -/
structure Scoped (s : Session) (x : Run Session α) : Prop where
  closed_iff : (∀ link ∈ (s.after (Session.whileOpen x)).server.links, link = .closed) ↔
    (Session.open_.run.run s).1 = .ok () ∨ ∃ fault, (Session.connect.run.run s).1 = .error fault
  opened : ∀ s', Session.open_.run.run s = (.ok (), s') →
    ((Session.whileOpen x).run.run s).1 = (x.run.run s').1
  failed : ∀ fault s', Session.open_.run.run s = (.error fault, s') →
    (Session.whileOpen x).run.run s = (.error fault, s') ∧
    (∀ n, s'.server.isUsable n = true → s'.reader.leader = some n) ∧
    ∀ link ∈ (s'.after Session.close).server.links, link = .closed

namespace Scoped

variable {s s' : Session} {x : Run Session α}

theorem of_opened (h : Session.open_.run.run s = (.ok (), s')) (hs : Held s'.scene)
    (hx : Using x) : Scoped s x := by
  obtain ⟨s'', hrun, hlinks⟩ := Session.whileOpen_ok h hs hx
  refine ⟨?_, fun s₁ h₁ => ?_, fun fault s₁ h₁ => ?_⟩
  · rw [Session.after, hrun, h]
    exact ⟨fun _ => .inl rfl, fun _ => hlinks⟩
  · obtain rfl : s' = s₁ := congrArg Prod.snd (h.symm.trans h₁)
    rw [hrun]
  · cases h.symm.trans h₁

theorem of_failed (h : Session.open_.run.run s = (.error fault, s')) (hs : Held s.scene)
    (hworkers : s.reader.workers = []) : Scoped s x := by
  obtain ⟨hkept, hleft⟩ := hs.open_error h
  have hs' : Held s'.scene := Using.open_.held hs |>.of_error h
  have hrun := Session.whileOpen_error (x := x) h
  refine ⟨?_, fun s₁ h₁ => ?_, fun fault₁ s₁ h₁ => ?_⟩
  · rw [Session.after, hrun, h]
    rcases hleft with ⟨hfails, hsame, hnone⟩ | ⟨⟨n, hconnect⟩, k, hled, hu⟩
    · refine ⟨fun _ => .inr hfails, fun _ => Scene.links_closed hs'.link fun n => ?_⟩
      rw [hsame]
      refine eq_false_of_ne_true fun hn => ?_
      rcases hs.owned n hn with hleader | hmem
      · exact hnone n ⟨hleader, hn⟩
      · rw [show s.scene.reader.workers = [] from hworkers] at hmem
        cases hmem
    · refine ⟨fun hlinks => ?_, ?_⟩
      · cases hlinks .usable (List.mem_of_getElem? (Scene.isUsable_iff.mp hu))
      · rintro (hok | ⟨fault, hfails⟩)
        · cases hok
        · cases hconnect.symm.trans hfails
  · cases h.symm.trans h₁
  · obtain ⟨hfault, rfl⟩ := Prod.mk.inj (h.symm.trans h₁)
    obtain rfl := Except.error.inj hfault
    obtain ⟨s'', hclose, hlinks⟩ := hs'.closed
    refine ⟨hrun, fun n hn => ?_, by rwa [Session.after, hclose]⟩
    refine (hs'.owned n hn).resolve_right fun hmem => ?_
    rw [show s'.scene.reader.workers = [] from hkept.trans hworkers] at hmem
    cases hmem

theorem of_using (hs : Held s.scene) (hworkers : s.reader.workers = []) (hx : Using x) :
    Scoped s x := by
  have hopen := Using.open_.held hs s rfl
  rcases hr : Session.open_.run.run s with ⟨fault | _, s'⟩
  · exact of_failed hr hs hworkers
  · rw [hr] at hopen
    exact of_opened hr hopen hx

end Scoped

theorem Shut.held {c : Scene} (h : Shut queries c) : Held c where
  link := h.link
  owned n hn := nomatch (h.idle n).symm.trans hn

/-- Whatever is done while a reader is open, on any threads and with any calls refused,
the connections that were opened are all closed once it is over, if the reader could be
opened or its leader could not be connected. Otherwise the leader stays, and closing the
reader would end it. Planning from settings is such a thing. -/
theorem scope_ends_connections [Sql.Parser] {s : Session} (hs : Held s.scene) (hworkers : s.reader.workers = []) :
    (∀ {α : Type} (x : Run Session α), Using x → Scoped s x) ∧
    ∀ parameters queries exports rows refusals settings,
      let s := Session.fresh parameters queries exports rows refusals
      (∀ link ∈ (s.after (Session.planSettings settings)).server.links, link = .closed) ↔
        (Session.open_.run.run s).1 = .ok () ∨
          ∃ fault, (Session.connect.run.run s).1 = .error fault := by
  refine ⟨fun x hx => .of_using hs hworkers hx, fun _ _ _ _ _ settings => ?_⟩
  have hplan := Using.planSchemas settings.schemas settings.workers
  exact (Scoped.of_using fresh_shut.held rfl hplan).closed_iff

def shopVisit : Run Session (List Value) := do
  let _ ← Run.outcome shopFetch
  let _ ← Session.fetch "other" .table (.list [.text "app"])
  throw .refused

theorem scope_ends_connections_shop :
    (∀ link ∈ (shopSession.after (Session.whileOpen shopVisit)).server.links, link = .closed) ∧
      (shopSession.after (Session.whileOpen shopVisit)).server.links.length = 3 := by
  have hvisit : Using shopVisit := by
    refine .bind (.outcome (.fetch ..)) fun _ => ?_
    exact .bind (.fetch ..) fun _ => .throw .refused
  have hscoped := (scope_ends_connections (s := shopSession) fresh_shut.held rfl).1 shopVisit hvisit
  exact ⟨hscoped.closed_iff.mpr (.inl rfl), by decide +kernel⟩

def shopSettings : Settings :=
  ⟨[("dbname", "shop")], ["app"], 4⟩

def unsettledSession : Session :=
  .fresh [("dbname", .text "shop")] [(.table, "SELECT tables")] [] [] fun
    | .setSession => [true]
    | _ => []

theorem leader_outlives_scope : ¬ ∀ link ∈
    (unsettledSession.after (Session.planSettings shopSettings)).server.links, link = .closed := by
  have hlinks : (unsettledSession.after (Session.planSettings shopSettings)).server.links =
      [.usable] := rfl
  rw [hlinks]
  decide

end CatalogPlan.Snapshot
