import CatalogPlan.Snapshot.Reader

/-!
# Sessions call by call

What a call does to a session is told apart from whether the server refuses it: a
refused call ends the run and leaves everything as it was but for the refusals that
are still to come.
-/

namespace CatalogPlan.Snapshot

/-- A session without the refusals and rows that its server has for later calls. -/
structure Scene where
  links : List Link
  notes : List Note
  exports : List Value
  reader : Reader

def Session.scene (s : Session) : Scene :=
  ⟨s.server.links, s.server.notes, s.server.exports, s.reader⟩

namespace Scene

def isUsable (c : Scene) (n : Nat) : Bool :=
  c.links[n]? == some .usable

def note (c : Scene) (n : Nat) (act : Act) : Scene :=
  { c with notes := c.notes ++ [⟨n, act⟩] }

def change (c : Scene) (f : Reader → Reader) : Scene :=
  { c with reader := f c.reader }

def opened (c : Scene) : Scene :=
  note { c with links := c.links ++ [.usable] } c.links.length (.connect c.reader.parameters)

def closed (c : Scene) (n : Nat) : Scene :=
  note { c with links := c.links.set n .closed } n .close

end Scene

/-- A run from a scene ends with a result or at a fault as told. -/
def Triple (x : Run Session α) (c : Scene) (Q : α → Scene → Prop) (E : Scene → Prop) : Prop :=
  ∀ s : Session, s.scene = c → match x.run.run s with
    | (.ok a, s') => Q a s'.scene
    | (.error _, s') => E s'.scene

theorem run_bind (x : Run σ α) (f : α → Run σ β) (s : σ) : (x >>= f).run.run s =
    match x.run.run s with
    | (.ok a, s') => (f a).run.run s'
    | (.error fault, s') => (.error fault, s') := by
  have hbind : (x >>= f).run.run s = (ExceptT.bindCont f (x.run.run s).1).run (x.run.run s).2 := rfl
  rw [hbind]
  rcases x.run.run s with ⟨_ | _, s'⟩ <;> rfl

theorem onServer_run (x : Run Server α) (s : Session) : (Session.onServer x).run.run s =
    ((x.run.run s.server).1, { s with server := (x.run.run s.server).2 }) :=
  rfl

namespace Triple

variable {x : Run Session α} {f : α → Run Session β} {c : Scene} {E : Scene → Prop}

theorem bind {R : β → Scene → Prop} (h : Triple x c (fun a c' => Triple (f a) c' R E) E) :
    Triple (x >>= f) c R E := by
  intro s hs
  have hx := h s hs
  rw [run_bind]
  rcases hr : x.run.run s with ⟨fault | a, s'⟩
  · rw [hr] at hx
    exact hx
  · rw [hr] at hx
    exact hx s' rfl

theorem mono {Q R : α → Scene → Prop} {F : Scene → Prop} (h : Triple x c Q E)
    (hq : ∀ a c', Q a c' → R a c') (he : ∀ c', E c' → F c') : Triple x c R F := by
  intro s hs
  have hx := h s hs
  rcases hr : x.run.run s with ⟨fault | a, s'⟩
  · rw [hr] at hx
    exact he _ hx
  · rw [hr] at hx
    exact hq _ _ hx

theorem pure {Q : α → Scene → Prop} (h : Q a c) : Triple (Pure.pure a) c Q E := by
  rintro s rfl
  exact h

theorem throw {Q : α → Scene → Prop} (h : E c) : Triple (MonadExcept.throw fault) c Q E := by
  rintro s rfl
  exact h

theorem get {g : Session → Run Session α} {Q : α → Scene → Prop}
    (h : ∀ s : Session, s.scene = c → Triple (g s) c Q E) :
    Triple (MonadState.get >>= g) c Q E := by
  refine bind fun s hs => ?_
  subst hs
  exact h s rfl

theorem changeReader {f : Reader → Reader} {Q : Unit → Scene → Prop} (h : Q () (c.change f)) :
    Triple (Session.changeReader f) c Q E := by
  rintro s rfl
  exact h

theorem isUsable {Q : Bool → Scene → Prop} (h : Q (c.isUsable n) c) :
    Triple (Session.isUsable n) c Q E := by
  rintro s rfl
  exact h

/-- What is read of a value has nothing to do with the session. -/
theorem reading {x : Except Fault α} {Q : α → Scene → Prop} (h : ∀ a, Q a c) (he : E c) :
    Triple (liftM x) c Q E := by
  rintro s rfl
  cases x with
  | error fault => exact he
  | ok a => exact h a

theorem mapM {f : α → Run Session β} {I : Scene → Prop}
    (h : ∀ a c, I c → Triple (f a) c (fun _ => I) I) (as : List α) :
    ∀ c, I c → Triple (as.mapM f) c (fun _ => I) I := by
  induction as with
  | nil => exact fun c hc => pure hc
  | cons a as ih =>
    intro c hc
    rw [List.mapM_cons]
    refine bind ((h a c hc).mono (fun b c hc => ?_) fun _ => id)
    exact bind ((ih c hc).mono (fun bs c hc => pure hc) fun _ => id)

end Triple

-- ---------------------------------------------------------------------------
-- Calls
-- ---------------------------------------------------------------------------

theorem attempt_run (call : Call) (s : Server) : ∃ refusals,
    (Server.attempt call).run.run s = (.ok (), { s with refusals }) ∨
      (Server.attempt call).run.run s = (.error .refused, { s with refusals }) := by
  have hget : (MonadState.get : Run Server Server).run.run s = (.ok s, s) := rfl
  simp only [Server.attempt, run_bind, hget]
  cases s.refusals call with
  | nil => exact ⟨s.refusals, .inl rfl⟩
  | cons refused later =>
    refine ⟨fun c => if c = call then later else s.refusals c, ?_⟩
    cases refused with
    | false => exact .inl rfl
    | true => exact .inr rfl

namespace Triple

variable {c : Scene} {E : Scene → Prop}

theorem attempt {call : Call} {f : Unit → Run Server α} {Q : α → Scene → Prop}
    (h : Triple (Session.onServer (f ())) c Q E) (he : E c) :
    Triple (Session.onServer (Server.attempt call >>= f)) c Q E := by
  rintro s rfl
  rw [onServer_run, run_bind]
  obtain ⟨refusals, hr | hr⟩ := attempt_run call s.server
  · rw [hr]
    exact h { s with server := { s.server with refusals } } rfl
  · rw [hr]
    exact he

theorem connect {Q : Nat → Scene → Prop} (h : Q c.links.length c.opened) (he : E c) :
    Triple Session.newConnection c Q E := by
  refine get fun s hs => attempt ?_ he
  have hreader : s.reader = c.reader := congrArg Scene.reader hs
  rw [hreader]
  rintro s rfl
  exact h

theorem setSession {Q : Unit → Scene → Prop} (h : Q () (c.note n .setSession)) (he : E c) :
    Triple (Session.onServer (Server.setSession n)) c Q E := by
  refine attempt ?_ he
  rintro s rfl
  exact h

theorem cursor {Q : Unit → Scene → Prop} (h : Q () (c.note n (.cursor named))) :
    Triple (Session.onServer (Server.cursor n named)) c Q E := by
  rintro s rfl
  exact h

theorem execute {Q : Unit → Scene → Prop} (h : Q () (c.note n (.execute query parameters)))
    (he : E c) : Triple (Session.onServer (Server.execute n query parameters)) c Q E := by
  refine attempt ?_ he
  rintro s rfl
  exact h

theorem fetchAll {Q : Value → Scene → Prop} (h : ∀ rows, Q rows c) (he : E c) :
    Triple (Session.onServer (Server.fetchAll query)) c Q E := by
  refine attempt ?_ he
  rintro s rfl
  exact h _

theorem exported {Q : Value → Scene → Prop}
    (h : Q (c.exports.headD Server.anySnapshot) { c with exports := c.exports.tail }) (he : E c) :
    Triple (Session.onServer Server.exported) c Q E := by
  refine attempt ?_ he
  rintro ⟨server, reader⟩ rfl
  obtain ⟨links, notes, refusals, exports, rows⟩ := server
  cases exports <;> exact h

theorem rollback {Q : Unit → Scene → Prop} (h : Q () (c.note n .rollback)) :
    Triple (Session.onServer (Server.rollback n)) c Q E := by
  rintro s rfl
  exact h

theorem close {Q : Unit → Scene → Prop} (h : Q () (c.closed n)) :
    Triple (Session.onServer (Server.close n)) c Q E := by
  rintro s rfl
  exact h

end Triple

end CatalogPlan.Snapshot
