import CatalogPlan.Proofs.Snapshot.Run

/-!
# The connections of a reader

Connections outlive the steps that set them up, the threads that use them, and
failures in between. At any time every usable connection is the leader or a worker
of the reader, and the worker of a thread has imported the snapshot that the reader
has. Closing ends all of them, so that nothing is left of an earlier snapshot.
-/

namespace CatalogPlan.Snapshot

def Imported (notes : List Note) (n : Nat) (snapshot : Value) : Prop :=
  ⟨n, .execute importQuery (.list [snapshot])⟩ ∈ notes

/-- A statement is a query of a catalog unless it exports or imports a snapshot. -/
def Note.isQuery (x : Note) : Bool :=
  match x.act with
  | .execute text .null => text != exportQuery
  | .execute text (.list [_]) => text != importQuery
  | .execute .. => true
  | _ => false

def Quiet (base : List Note) (c : Scene) : Prop :=
  ∃ new, c.notes = base ++ new ∧ ∀ x ∈ new, x.isQuery = false

/-- Every query of a catalog that has been noted since is on a connection that is not
the leader and that had imported a snapshot before. -/
def Guarded (latest : Option Value) (base : List Note) (c : Scene) : Prop :=
  ∃ new, c.notes = base ++ new ∧ ∀ before q later, new = before ++ q :: later →
    q.isQuery = true → ∃ v, latest = some v ∧ Imported (base ++ before) q.connection v ∧
      c.reader.leader ≠ some q.connection ∧ c.reader.exporter ≠ some q.connection

inductive Reader.Knows (r : Reader) (n : Nat) : Prop where
  | leader (h : r.leader = some n)
  | exporter (h : r.exporter = some n)
  | worker (h : n ∈ r.workers)
  | thread (t : String) (h : r.threads.lookup t = some n)

/-- A reader with certain queries knows only connections that its server has, and the
server has dropped none. -/
structure Linked (queries : List (Kind × String)) (c : Scene) : Prop where
  link : ∀ link ∈ c.links, link ≠ .dropped
  bounded : ∀ n, c.reader.Knows n → n < c.links.length
  configured : c.reader.queries = queries

/-- What holds of a reader at any time, where `latest` is the snapshot of its latest
opening. -/
structure Sound (queries : List (Kind × String)) (latest : Option Value) (c : Scene) : Prop
    extends Linked queries c where
  owned : ∀ n, c.isUsable n = true → c.reader.leader = some n ∨ n ∈ c.reader.workers
  apart : ∀ n ∈ c.reader.workers, c.reader.leader ≠ some n ∧ c.reader.exporter ≠ some n
  thread : ∀ t n, c.reader.threads.lookup t = some n → c.isUsable n = true →
    n ∈ c.reader.workers ∧ ∃ v, latest = some v ∧ Imported c.notes n v
  snapshot : ∀ v, c.reader.snapshot = some v → latest = some v

structure Shut (queries : List (Kind × String)) (c : Scene) : Prop
    extends Linked queries c where
  idle : ∀ n, c.isUsable n = false
  workers : c.reader.workers = []
  snapshot : c.reader.snapshot = none

structure Ended (ns : List Nat) (c c' : Scene) : Prop where
  length : c'.links.length = c.links.length
  link : ∀ link ∈ c'.links, link ∈ c.links ∨ link = .closed
  isUsable : ∀ n, c'.isUsable n = true ↔ c.isUsable n = true ∧ n ∉ ns
  quiet : ∀ base, Quiet base c → Quiet base c'

-- ---------------------------------------------------------------------------
-- Connections
-- ---------------------------------------------------------------------------

namespace Scene

variable {c : Scene}

theorem isUsable_iff : c.isUsable n = true ↔ c.links[n]? = some .usable := by
  simp [isUsable]

theorem isUsable_opened : c.opened.isUsable n = true ↔
    n = c.links.length ∨ c.isUsable n = true := by
  simp only [isUsable_iff, opened, note, List.getElem?_append]
  split
  · rename_i h
    simp [Nat.ne_of_lt h]
  · rename_i h
    have hnone : c.links[n]? = none := List.getElem?_eq_none (by omega)
    rw [hnone, List.getElem?_singleton]
    simp
    omega

theorem isUsable_closed : (c.closed k).isUsable n = true ↔ n ≠ k ∧ c.isUsable n = true := by
  simp only [isUsable_iff, closed, note, List.getElem?_set]
  split
  · rename_i h
    subst h
    simp
  · rename_i h
    simp [Ne.symm h]

theorem links_closed (hlink : ∀ link ∈ c.links, link ≠ .dropped)
    (hidle : ∀ n, c.isUsable n = false) : ∀ link ∈ c.links, link = .closed := by
  intro link hl
  obtain ⟨n, hn⟩ := List.getElem?_of_mem hl
  cases link with
  | usable => cases (hidle n).symm.trans (isUsable_iff.mpr hn)
  | closed => rfl
  | dropped => exact absurd rfl (hlink .dropped hl)

end Scene

-- ---------------------------------------------------------------------------
-- Notes
-- ---------------------------------------------------------------------------

theorem imported_note {c : Scene} : Imported
    (c.note n (.execute importQuery (.list [v]))).notes n v :=
  List.mem_append_right _ (List.mem_singleton_self _)

theorem Imported.mono (h : Imported notes n v) (hs : notes ⊆ more) : Imported more n v :=
  hs h

namespace Quiet

variable {base : List Note} {c : Scene}

theorem refl (c : Scene) : Quiet c.notes c :=
  ⟨[], by simp, by simp⟩

theorem note (h : Quiet base c) (n : Nat) (act : Act) (hx : Note.isQuery ⟨n, act⟩ = false) :
    Quiet base (c.note n act) := by
  obtain ⟨new, hnew, hall⟩ := h
  refine ⟨new ++ [⟨n, act⟩], ?_, ?_⟩
  · rw [Scene.note, hnew, List.append_assoc]
  · simpa [or_imp, forall_and] using ⟨hall, hx⟩

theorem guarded (h : Quiet base c) (latest : Option Value) : Guarded latest base c := by
  obtain ⟨new, hnew, hall⟩ := h
  refine ⟨new, hnew, fun before q later hsplit hq => ?_⟩
  rw [hall q (by simp [hsplit])] at hq
  cases hq

theorem query (h : Quiet base c) (hlatest : latest = some v) (himported : Imported c.notes n v)
    (hleader : c.reader.leader ≠ some n) (hexporter : c.reader.exporter ≠ some n)
    (text : String) (parameters : Value) :
    Guarded latest base (c.note n (.execute text parameters)) := by
  obtain ⟨new, hnew, hall⟩ := h
  refine ⟨new ++ [⟨n, .execute text parameters⟩], ?_, fun before q later hsplit hq => ?_⟩
  · rw [Scene.note, hnew, List.append_assoc]
  · rcases List.eq_nil_or_concat later with rfl | ⟨later, last, rfl⟩
    · obtain ⟨rfl, hq⟩ := List.append_inj' hsplit rfl
      obtain rfl := List.singleton_inj.mp hq
      exact ⟨v, hlatest, hnew ▸ himported, hleader, hexporter⟩
    · -- A query before the last note would be among the quiet ones.
      rw [List.concat_eq_append, ← List.cons_append, ← List.append_assoc] at hsplit
      obtain ⟨rfl, -⟩ := List.append_inj' hsplit rfl
      rw [hall q (by simp)] at hq
      cases hq

end Quiet

-- ---------------------------------------------------------------------------
-- Single changes
-- ---------------------------------------------------------------------------

theorem Reader.lookup_setThread (r : Reader) (thread : String) (n : Nat) (t : String) :
    (r.setThread thread n).threads.lookup t =
      if t = thread then some n else r.threads.lookup t := by
  rw [setThread, List.lookup_cons]
  by_cases h : t = thread
  · simp [h]
  · rw [beq_false_of_ne h, if_neg h]
    induction r.threads with
    | nil => rfl
    | cons entry rest ih =>
      obtain ⟨known, k⟩ := entry
      by_cases hk : known = thread
      · have hne : t ≠ known := hk ▸ h
        simpa [List.filter_cons, hk, List.lookup_cons, beq_false_of_ne h] using ih
      · simp only [List.filter_cons, bne_iff_ne, ne_eq, hk, not_false_eq_true, if_true,
          List.lookup_cons, ih]

theorem Reader.Knows.imp {r r' : Reader} (h : r'.Knows n)
    (hleader : r'.leader = some n → r.leader = some n)
    (hexporter : r'.exporter = some n → r.exporter = some n)
    (hworkers : n ∈ r'.workers → n ∈ r.workers)
    (hthreads : ∀ t, r'.threads.lookup t = some n → r.threads.lookup t = some n) :
    r.Knows n := by
  cases h with
  | leader h => exact .leader (hleader h)
  | exporter h => exact .exporter (hexporter h)
  | worker h => exact .worker (hworkers h)
  | thread t h => exact .thread t (hthreads t h)

namespace Linked

variable {c : Scene} {f : Reader → Reader}

theorem change (h : Linked queries c) (hqueries : (f c.reader).queries = c.reader.queries)
    (hknows : ∀ n, (f c.reader).Knows n → c.reader.Knows n) : Linked queries (c.change f) :=
  ⟨h.link, fun n hn => h.bounded n (hknows n hn), hqueries.trans h.configured⟩

theorem opened (h : Linked queries c) (hqueries : (f c.reader).queries = c.reader.queries)
    (hknows : ∀ n, (f c.reader).Knows n → n = c.links.length ∨ c.reader.Knows n) :
    Linked queries (c.opened.change f) := by
  refine ⟨fun link hl => ?_, fun n hn => ?_, hqueries.trans h.configured⟩
  · rcases List.mem_append.mp hl with hl | hl
    · exact h.link link hl
    · obtain rfl := List.mem_singleton.mp hl
      decide
  · have hlength : (c.opened.change f).links.length = c.links.length + 1 := List.length_append
    rw [hlength]
    rcases hknows n hn with rfl | hn
    · exact Nat.lt_succ_self _
    · exact Nat.lt_succ_of_lt (h.bounded n hn)

end Linked

namespace Sound

variable {c : Scene}

theorem note (h : Sound queries latest c) (n : Nat) (act : Act) :
    Sound queries latest (c.note n act) := by
  refine { h with thread := fun t k hk hu => ?_ }
  obtain ⟨hworker, v, hlatest, himported⟩ := h.thread t k hk hu
  exact ⟨hworker, v, hlatest, himported.mono (List.subset_append_left ..)⟩

theorem hired (h : Sound queries latest c) : Sound queries latest
    (c.opened.change fun r => { r with workers := r.workers ++ [c.links.length] }) := by
  have hold : ∀ n, c.reader.Knows n → c.opened.isUsable n = true → c.isUsable n = true :=
    fun n hn hu => (Scene.isUsable_opened.mp hu).resolve_left (Nat.ne_of_lt (h.bounded n hn))
  refine ⟨h.opened rfl fun n hn => ?_, ?_, ?_, ?_, h.snapshot⟩
  · cases hn with
    | leader hn => exact .inr (.leader hn)
    | exporter hn => exact .inr (.exporter hn)
    | worker hn =>
      rcases List.mem_append.mp hn with hn | hn
      · exact .inr (.worker hn)
      · exact .inl (List.mem_singleton.mp hn)
    | thread t hn => exact .inr (.thread t hn)
  · intro n hn
    rcases Scene.isUsable_opened.mp hn with rfl | hn
    · exact .inr (List.mem_append_right _ (List.mem_singleton_self _))
    · exact (h.owned n hn).imp_right (List.mem_append_left _)
  · intro n hn
    rcases List.mem_append.mp hn with hn | hn
    · exact h.apart n hn
    · obtain rfl := List.mem_singleton.mp hn
      exact ⟨fun hleader => Nat.lt_irrefl _ (h.bounded _ (.leader hleader)),
        fun hexporter => Nat.lt_irrefl _ (h.bounded _ (.exporter hexporter))⟩
  · intro t n hn hu
    obtain ⟨hworker, v, hlatest, himported⟩ :=
      h.thread t n hn (hold n (.thread t hn) hu)
    exact ⟨List.mem_append_left _ hworker, v, hlatest,
      himported.mono (List.subset_append_left ..)⟩

theorem assigned (h : Sound queries latest c) (hn : n ∈ c.reader.workers)
    (hlatest : latest = some v) (himported : Imported c.notes n v) (thread : String) :
    Sound queries latest (c.change fun r => r.setThread thread n) := by
  have hlookup : ∀ {t k}, (c.reader.setThread thread n).threads.lookup t = some k →
      k = n ∨ c.reader.threads.lookup t = some k := by
    intro t k hk
    rw [Reader.lookup_setThread] at hk
    split at hk
    · exact .inl (Option.some.inj hk).symm
    · exact .inr hk
  refine { h with toLinked := h.change rfl fun k hk => ?_, thread := ?_ }
  · cases hk with
    | leader hk => exact .leader hk
    | exporter hk => exact .exporter hk
    | worker hk => exact .worker hk
    | thread t hk =>
      rcases hlookup hk with rfl | hk
      · exact .worker hn
      · exact .thread t hk
  · intro t k hk hu
    rcases hlookup hk with rfl | hk
    · exact ⟨hn, v, hlatest, himported⟩
    · exact h.thread t k hk hu

theorem taken (h : Sound queries none c) (snapshot : Value) :
    Sound queries (some snapshot) (Scene.change { c with exports := c.exports.tail } fun r =>
      { r with snapshot := if snapshot matches .null then none else some snapshot }) := by
  refine { h with
    bounded := fun n hn => h.bounded n (hn.imp id id id fun _ => id)
    thread := fun t n hn hu => ?_
    snapshot := fun v hv => ?_ }
  · obtain ⟨-, v, hnone, -⟩ := h.thread t n hn hu
    cases hnone
  · simp only [Scene.change] at hv
    split at hv
    · cases hv
    · exact hv

end Sound

namespace Ended

variable {c c' c'' : Scene}

theorem skip (h : ∀ n ∈ ns, c.isUsable n = false) : Ended ns c c where
  length := rfl
  link _ hl := .inl hl
  isUsable n := by
    refine ⟨fun hn => ⟨hn, fun hmem => ?_⟩, And.left⟩
    simp [h n hmem] at hn
  quiet _ := id

theorem note (h : Ended ns c c') (n : Nat) (act : Act) (hx : Note.isQuery ⟨n, act⟩ = false) :
    Ended ns c (c'.note n act) :=
  { h with quiet := fun base hb => (h.quiet base hb).note n act hx }

theorem closed (c : Scene) (n : Nat) : Ended [n] c (c.closed n) where
  length := List.length_set ..
  link _ hl := List.mem_or_eq_of_mem_set hl
  isUsable k := by
    rw [Scene.isUsable_closed, List.mem_singleton]
    exact and_comm
  quiet _ hb := hb.note n .close rfl

theorem trans (h : Ended ns c c') (h' : Ended ms c' c'') : Ended (ns ++ ms) c c'' where
  length := h'.length.trans h.length
  link link hl := (h'.link link hl).elim (h.link link) .inr
  isUsable n := by
    rw [h'.isUsable, h.isUsable, List.mem_append, not_or, and_assoc]
  quiet base hb := h'.quiet base (h.quiet base hb)

theorem idle (h : Ended ns c c') (hns : ∀ n, c.isUsable n = true → n ∈ ns) (n : Nat) :
    c'.isUsable n = false := by
  refine eq_false_of_ne_true fun hn => ?_
  obtain ⟨hu, hmem⟩ := (h.isUsable n).mp hn
  exact hmem (hns n hu)

theorem not_dropped (h : Ended ns c c') (hlink : ∀ link ∈ c.links, link ≠ .dropped) :
    ∀ link ∈ c'.links, link ≠ .dropped := by
  intro link hl
  rcases h.link link hl with hl | rfl
  · exact hlink link hl
  · decide

end Ended

theorem Sound.shut {c c' : Scene} (h : Sound queries latest c)
    (hended : Ended (c.reader.workers ++ c.reader.leader.toList) c c')
    (hleader : leader = none ∨ leader = c.reader.leader)
    (hreader : c'.reader =
      { c.reader with leader, workers := [], exporter := none, snapshot := none }) :
    Shut queries c' := by
  have hidle : ∀ n, c'.isUsable n = false := hended.idle fun n hn => by
    simpa [or_comm, Option.mem_toList] using h.owned n hn
  refine ⟨⟨hended.not_dropped h.link, fun n hn => ?_, ?_⟩, hidle, ?_, ?_⟩
  · rw [hended.length]
    rw [hreader] at hn
    refine h.bounded n (hn.imp (fun hn => ?_) nofun nofun fun _ => id)
    rcases hleader with rfl | rfl
    · cases hn
    · exact hn
  · rw [hreader]
    exact h.configured
  · rw [hreader]
  · rw [hreader]

namespace Shut

variable {c : Scene}

theorem sound (h : Shut queries c) (latest : Option Value) : Sound queries latest c := by
  have hidle : ∀ n, c.isUsable n ≠ true := fun n => by simp [h.idle n]
  refine { h with
    owned := fun n hn => absurd hn (hidle n)
    apart := ?_
    thread := fun t n _ hn => absurd hn (hidle n)
    snapshot := ?_ }
  · simp [h.workers]
  · simp [h.snapshot]

theorem led (h : Shut queries c) : Sound queries none ((c.opened.change fun r =>
    { r with leader := some c.links.length }).change fun r =>
      { r with exporter := some c.links.length }) := by
  have hlast : ∀ n, c.opened.isUsable n = true → n = c.links.length := by
    intro n hn
    refine (Scene.isUsable_opened.mp hn).resolve_right ?_
    simp [h.idle n]
  refine ⟨h.opened (f := fun r => { r with
      leader := some c.links.length, exporter := some c.links.length }) rfl fun n hn => ?_,
    ?_, ?_, ?_, ?_⟩
  · cases hn with
    | leader hn => exact .inl (Option.some.inj hn).symm
    | exporter hn => exact .inl (Option.some.inj hn).symm
    | worker hn => exact .inr (.worker hn)
    | thread t hn => exact .inr (.thread t hn)
  · exact fun n hn => .inl (hlast n hn ▸ rfl)
  · intro n hn
    simp [Scene.change, Scene.opened, Scene.note, h.workers] at hn
  · intro t n hn hu
    have hlt : n < c.links.length := h.bounded n (.thread t hn)
    exact absurd (hlast n hu) (Nat.ne_of_lt hlt)
  · intro v hv
    cases h.snapshot.symm.trans hv

end Shut

-- ---------------------------------------------------------------------------
-- Opening
-- ---------------------------------------------------------------------------

structure Steady (queries : List (Kind × String)) (latest : Option Value) (base : List Note)
    (c : Scene) : Prop where
  sound : Sound queries latest c
  quiet : Quiet base c

theorem Steady.note {c : Scene} (h : Steady queries latest base c) (n : Nat) (act : Act)
    (hx : Note.isQuery ⟨n, act⟩ = false) : Steady queries latest base (c.note n act) :=
  ⟨h.sound.note n act, h.quiet.note n act hx⟩

namespace Triple

variable {c : Scene}

theorem setUp {f : Unit → Run Session α} {Q : α → Scene → Prop}
    (h : Steady queries latest base c) (hx : Note.isQuery ⟨n, .execute text parameters⟩ = false)
    (hf : ∀ c', c' = ((c.note n .setSession).note n (.cursor false)).note n
      (.execute text parameters) → Steady queries latest base c' →
      Triple (f ()) c' Q (Steady queries latest base)) :
    Triple (do
      Session.onServer (Server.setSession n)
      Session.onServer (Server.cursor n false)
      Session.onServer (Server.execute n text parameters) >>= f) c Q
      (Steady queries latest base) := by
  have hset := h.note n .setSession rfl
  have hcursor := hset.note n (.cursor false) rfl
  refine .bind (.setSession ?_ h)
  refine .bind (.cursor ?_)
  refine .bind (.execute ?_ hcursor)
  exact hf _ rfl (hcursor.note n (.execute text parameters) hx)

theorem leader (h : Shut queries c) : Triple Session.connect c
    (fun n c' => n = c.links.length ∧
      c' = c.opened.change fun r => { r with leader := some c.links.length })
    (fun c' => c' = c) := by
  have hreopen : Triple Session.connect.reopen c
      (fun n c' => n = c.links.length ∧
        c' = c.opened.change fun r => { r with leader := some c.links.length })
      (fun c' => c' = c) := by
    refine .bind (.connect ?_ rfl)
    exact .bind (.changeReader (.pure ⟨rfl, rfl⟩))
  refine .get fun s hs => ?_
  split
  · refine .bind (.isUsable ?_)
    rw [h.idle]
    exact hreopen
  · exact hreopen

theorem opening (h : Shut queries c) : Triple Session.open_ c
    (fun _ c' => Steady queries (some (c.exports.headD Server.anySnapshot)) c.notes c')
    (fun c' => Steady queries none c.notes c') := by
  have hstart : Steady queries none c.notes c := ⟨h.sound none, .refl c⟩
  refine .bind ((leader h).mono ?_ fun c' hc => hc ▸ hstart)
  rintro n c' ⟨rfl, rfl⟩
  have hled : Steady queries none c.notes _ :=
    ⟨h.led, (Quiet.refl c).note c.links.length (.connect c.reader.parameters) rfl⟩
  refine .bind (.changeReader ?_)
  refine .setUp hled (bne_self_eq_false _) ?_
  rintro c' rfl hexport
  refine .bind (.exported ?_ hexport)
  exact .changeReader ⟨hexport.sound.taken _, hexport.quiet⟩

end Triple

-- ---------------------------------------------------------------------------
-- Fetching
-- ---------------------------------------------------------------------------

structure Ready (queries : List (Kind × String)) (latest : Option Value) (base : List Note)
    (n : Nat) (c : Scene) : Prop extends Steady queries latest base c where
  hired : n ∈ c.reader.workers
  imported : ∃ v, latest = some v ∧ Imported c.notes n v

namespace Triple

variable {c : Scene}

theorem newWorker (h : Steady queries latest base c) (thread : String) :
    Triple (Session.worker.reopen thread) c (Ready queries latest base)
      (Steady queries latest base) := by
  refine .get fun s hs => ?_
  split
  · exact .throw h
  · rename_i snapshot hsnapshot
    have hlatest : latest = some snapshot :=
      h.sound.snapshot snapshot (congrArg Scene.reader hs ▸ hsnapshot)
    refine .bind (.connect ?_ h)
    refine .bind (.changeReader ?_)
    have hhired : Steady queries latest base _ :=
      ⟨h.sound.hired, h.quiet.note c.links.length (.connect c.reader.parameters) rfl⟩
    refine .setUp hhired (bne_self_eq_false _) ?_
    rintro c' rfl himport
    have hworker : c.links.length ∈ c.reader.workers ++ [c.links.length] := by simp
    have hassigned := himport.sound.assigned hworker hlatest imported_note thread
    exact .bind (.changeReader (.pure
      ⟨⟨hassigned, himport.quiet⟩, hworker, snapshot, hlatest, imported_note⟩))

theorem worker (h : Steady queries latest base c) (thread : String) :
    Triple (Session.worker thread) c (Ready queries latest base)
      (Steady queries latest base) := by
  refine .get fun s hs => ?_
  subst hs
  split
  · rename_i n hn
    refine .bind (.isUsable ?_)
    split
    · rename_i hu
      obtain ⟨hworker, himported⟩ := h.sound.thread thread n hn hu
      exact .pure ⟨h, hworker, himported⟩
    · exact newWorker h thread
  · exact newWorker h thread

theorem fetching (h : Sound queries latest c) (thread : String) (kind : Kind) (schemas : Value) :
    Triple (Session.fetch thread kind schemas) c
      (fun _ c' => Sound queries latest c' ∧ Guarded latest c.notes c')
      (fun c' => Sound queries latest c' ∧ Guarded latest c.notes c') := by
  have hsteady : ∀ c', Steady queries latest c.notes c' →
      Sound queries latest c' ∧ Guarded latest c.notes c' :=
    fun c' h => ⟨h.sound, h.quiet.guarded latest⟩
  refine .get fun s hs => ?_
  split
  · exact .throw (hsteady c ⟨h, .refl c⟩)
  · rename_i query hquery
    refine .bind ((worker ⟨h, .refl c⟩ thread).mono (fun n c' hready => ?_) hsteady)
    refine .bind (.cursor ?_)
    have hcursor := hready.toSteady.note n (.cursor true) rfl
    refine .bind (.reading (fun names => ?_) (hsteady _ hcursor))
    refine .bind (.execute ?_ (hsteady _ hcursor))
    obtain ⟨v, hlatest, himported⟩ := hready.imported
    obtain ⟨hleader, hexporter⟩ := hready.sound.apart n hready.hired
    have hsound := hcursor.sound.note n (.execute query (.object [("schemas", .list names)]))
    have hguarded := hcursor.quiet.query hlatest (himported.mono (List.subset_append_left ..))
      hleader hexporter query (.object [("schemas", .list names)])
    have hdone := And.intro hsound hguarded
    refine .bind (.fetchAll (fun rows => ?_) hdone)
    refine .bind (.reading (fun rows => ?_) hdone)
    refine .mapM (fun row c h => ?_) rows _ hdone
    exact .bind (.reading (fun fields => .pure h) h)

end Triple

-- ---------------------------------------------------------------------------
-- Closing
-- ---------------------------------------------------------------------------

namespace Triple

theorem endWorker (n : Nat) (c : Scene) : Triple (Session.endWorker n) c
    (fun _ c' => Ended [n] c c' ∧ c'.reader = c.reader) (fun _ => False) := by
  refine .bind (.isUsable ?_)
  split
  · have hnothing : Ended [] c c := .skip nofun
    have hrollback := hnothing.note n .rollback rfl
    exact .bind (.rollback (.close ⟨hrollback.trans (.closed _ n), rfl⟩))
  · rename_i hu
    refine .pure ⟨.skip fun k hk => ?_, rfl⟩
    rw [List.mem_singleton.mp hk]
    exact eq_false_of_ne_true hu

theorem endWorkers (ns : List Nat) (c : Scene) : Triple (ns.forM Session.endWorker) c
    (fun _ c' => Ended ns c c' ∧ c'.reader = c.reader) (fun _ => False) := by
  induction ns generalizing c with
  | nil => exact .pure ⟨.skip nofun, rfl⟩
  | cons n ns ih =>
    refine .bind ((endWorker n c).mono ?_ fun _ => id)
    rintro - c' ⟨hn, hreader⟩
    refine (ih c').mono ?_ fun _ => id
    rintro - c'' ⟨hns, hreader'⟩
    exact ⟨hn.trans hns, hreader'.trans hreader⟩

theorem disconnect (c : Scene) : Triple Session.disconnect c
    (fun _ c' => Ended c.reader.leader.toList c c' ∧ ∃ leader,
      (leader = none ∨ leader = c.reader.leader) ∧ c'.reader = { c.reader with leader })
    (fun _ => False) := by
  refine .get fun s hs => ?_
  subst hs
  split
  · rename_i n hn
    have hleader : s.scene.reader.leader = some n := hn
    rw [hleader]
    refine .bind (.isUsable ?_)
    split
    · exact .bind (.close (.changeReader ⟨{ Ended.closed s.scene n with }, none, .inl rfl, rfl⟩))
    · rename_i hu
      refine .pure ⟨.skip fun k hk => ?_, some n, .inr rfl, ?_⟩
      · rw [List.mem_singleton.mp hk]
        exact eq_false_of_ne_true hu
      · rw [← hleader]
  · rename_i hnone
    have hleader : s.scene.reader.leader = none := Option.eq_none_iff_forall_ne_some.mpr hnone
    refine .pure ⟨.skip fun k hk => ?_, none, .inl rfl, ?_⟩
    · rw [hleader] at hk
      cases hk
    · rw [← hleader]

/-- Closing a reader ends its workers and its leader, whatever happened before. -/
theorem ending (c : Scene) : Triple Session.close c
    (fun _ c' => Ended (c.reader.workers ++ c.reader.leader.toList) c c' ∧ ∃ leader,
      (leader = none ∨ leader = c.reader.leader) ∧
        c'.reader = { c.reader with leader, workers := [], exporter := none, snapshot := none })
    (fun _ => False) := by
  refine .get fun s hs => ?_
  subst hs
  refine .bind (.changeReader ?_)
  refine .bind ((endWorkers s.reader.workers _).mono ?_ fun _ => id)
  rintro - c ⟨hworkers, hreader⟩
  have hdone : ∀ c', Ended s.reader.workers s.scene c' →
      c'.reader = { s.reader with workers := [] } → Triple (do
        Session.disconnect
        Session.changeReader fun r => { r with exporter := none, snapshot := none }) c'
        (fun _ c'' => Ended (s.reader.workers ++ s.reader.leader.toList) s.scene c'' ∧ ∃ leader,
          (leader = none ∨ leader = s.reader.leader) ∧
            c''.reader = { s.reader with leader, workers := [], exporter := none, snapshot := none })
        (fun _ => False) := by
    intro c' hended hc'
    refine .bind ((disconnect c').mono ?_ fun _ => id)
    rintro - c'' ⟨hleader, leader, hkept, hc''⟩
    rw [hc'] at hleader hkept
    refine .changeReader ⟨{ hended.trans hleader with }, leader, hkept, ?_⟩
    rw [Scene.change, hc'', hc']
  have hended : Ended s.reader.workers s.scene c := { hworkers with }
  refine .get fun s' hs' => ?_
  dsimp only
  split
  · rename_i n hn
    refine .bind (.isUsable ?_)
    split
    · exact .bind (.rollback (hdone _ (hended.note n .rollback rfl) hreader))
    · exact hdone c hended hreader
  · exact hdone c hended hreader

theorem closing (h : Sound queries latest c) : Triple Session.close c
    (fun _ c' => Shut queries c' ∧ Quiet c.notes c') (fun _ => False) := by
  refine (ending c).mono ?_ fun _ => id
  rintro - c' ⟨hended, leader, hleader, hreader⟩
  exact ⟨h.shut hended hleader hreader, hended.quiet _ (.refl c)⟩

end Triple

end CatalogPlan.Snapshot
