/-
# Transactions around one lock

Any number of sessions, each with a program, a list of statements.  A session takes the one lock,
executes its statements on a view that only it sees, and commits the view; or it rolls back, which
leaves what was committed as it was.  Both free the lock.  The answer to a commit may be lost.

`Sound` is what the lock and the views are for: the committed programs are as if executed whole, one
after another (`Journal.Linear`), and a session inside sees what it has executed on the committed
state.

The first part is about programs of statements that settle: executed again, such a statement changes
nothing, and no other undoes it.  Then a program settles as well, and programs that are beginnings
of one another leave what the longest of them leaves.
-/
import Librouter.Foundations.Journal
import Librouter.Foundations.Mutex
import Librouter.Foundations.Runs

namespace Transactions

variable {σ S : Type*}

/-! ## 1. Programs -/

section Programs

variable {exec : σ → S → Option σ} {s t u : σ} {a b : S} {p q r : List S}

/-- Statements one after another; the first that fails is the end. -/
def execAll (exec : σ → S → Option σ) : σ → List S → Option σ
  | s, [] => some s
  | s, a :: p => (exec s a).bind fun t => execAll exec t p

@[simp] theorem execAll_nil : execAll exec s [] = some s := rfl

@[simp] theorem execAll_cons :
    execAll exec s (a :: p) = (exec s a).bind fun t => execAll exec t p := rfl

theorem execAll_append :
    execAll exec s (p ++ q) = (execAll exec s p).bind fun t => execAll exec t q := by
  induction p generalizing s with
  | nil => rfl
  | cons a p ih => cases h : exec s a <;> simp [h, ih]

/-- The beginning of a program that succeeds succeeds. -/
theorem exists_execAll_of_prefix (h : execAll exec s q = some t) (hp : p <+: q) :
    ∃ m, execAll exec s p = some m := by
  obtain ⟨r, rfl⟩ := hp
  rw [execAll_append] at h
  obtain ⟨m, hm, -⟩ := Option.bind_eq_some_iff.mp h
  exact ⟨m, hm⟩

/-- Related states stay so under a program, if they do under its statements. -/
theorem execAll_rel {R : σ → σ → Prop} {s' : σ}
    (hR : ∀ a ∈ p, ∀ s s' t, R s s' → exec s a = some t → ∃ t', exec s' a = some t' ∧ R t t')
    (hs : R s s') (h : execAll exec s p = some t) : ∃ t', execAll exec s' p = some t' ∧ R t t' := by
  induction p generalizing s s' with
  | nil =>
    obtain rfl : s = t := by simpa using h
    exact ⟨s', rfl, hs⟩
  | cons a p ih =>
    obtain ⟨m, hm, hrest⟩ := Option.bind_eq_some_iff.mp h
    obtain ⟨m', hm', hrel⟩ := hR a List.mem_cons_self s s' m hs hm
    obtain ⟨t', ht', hrel'⟩ := ih (fun b hb => hR b (List.mem_cons_of_mem a hb)) hrel hrest
    exact ⟨t', by rw [execAll_cons, hm', Option.bind_some, ht'], hrel'⟩

/-- A statement settles, and stays settled whatever else is executed. -/
structure Settling (exec : σ → S → Option σ) : Prop where
  settles : ∀ s a t, exec s a = some t → exec t a = some t
  stays : ∀ s a b t, exec s a = some s → exec s b = some t → exec t a = some t

namespace Settling

theorem stays_execAll (h : Settling exec) (ha : exec s a = some s)
    (hp : execAll exec s p = some t) : exec t a = some t := by
  induction p generalizing s with
  | nil =>
    obtain rfl : s = t := by simpa using hp
    exact ha
  | cons b p ih =>
    obtain ⟨m, hm, hp⟩ := Option.bind_eq_some_iff.mp hp
    exact ih (h.stays s a b m ha hm) hp

/-- After a program all of its statements are settled. -/
theorem settled (h : Settling exec) (hp : execAll exec s p = some t) :
    ∀ a ∈ p, exec t a = some t := by
  induction p generalizing s with
  | nil => nofun
  | cons b p ih =>
    obtain ⟨m, hm, hrest⟩ := Option.bind_eq_some_iff.mp hp
    intro a ha
    rcases List.mem_cons.mp ha with rfl | ha
    · exact h.stays_execAll (h.settles s _ m hm) hrest
    · exact ih hrest a ha

end Settling

/-- Settled statements change nothing. -/
theorem execAll_of_settled (h : ∀ a ∈ p, exec t a = some t) : execAll exec t p = some t := by
  induction p with
  | nil => rfl
  | cons a p ih =>
    rw [execAll_cons, h a List.mem_cons_self, Option.bind_some]
    exact ih fun b hb => h b (List.mem_cons_of_mem a hb)

namespace Settling

/-- **A program executed again, as a whole or in part, changes nothing.** -/
theorem again (h : Settling exec) (hp : execAll exec s p = some t) (hq : q ⊆ p) :
    execAll exec t q = some t :=
  execAll_of_settled fun a ha => h.settled hp a (hq ha)

/-- **A longer program goes on where a shorter one has stopped.** -/
theorem resume (h : Settling exec) (hp : execAll exec s p = some t) (hpq : p <+: q) :
    execAll exec t q = execAll exec s q := by
  obtain ⟨r, rfl⟩ := hpq
  rw [execAll_append, execAll_append, hp, h.again hp fun a ha => ha]

/-- Blocks of statements, each executed whole, settle as well. -/
theorem blocks {T : Type*} (h : Settling exec) (f : T → List S) :
    Settling fun s b => execAll exec s (f b) where
  settles _ _ _ hb := h.again hb fun _ ha => ha
  stays _ _ _ _ ha hb :=
    execAll_of_settled fun c hc => h.stays_execAll (h.settled ha c hc) hb

/-- What one beginning of a program leaves, another one can start from. -/
theorem exists_execAll (h : Settling exec) (hr : execAll exec s r = some u) (hp : p <+: r)
    (hq : q <+: r) (ht : execAll exec s p = some t) : ∃ v, execAll exec t q = some v := by
  rcases List.prefix_or_prefix_of_prefix hp hq with hpq | hqp
  · obtain ⟨v, hv⟩ := exists_execAll_of_prefix hr hq
    exact ⟨v, (h.resume ht hpq).trans hv⟩
  · exact ⟨t, h.again ht hqp.subset⟩

end Settling

end Programs

/-! ## 2. Sessions -/

/-- Where a session stands. -/
inductive Phase (σ S : Type*)
  | waiting
  /-- the lock is taken: what the session sees, and what it still has to execute -/
  | inside (view : σ) (rest : List S)
  /-- the length of the journal when the answer came -/
  | committed (ended : ℕ)
  | failed

def Phase.outcome : Phase σ S → Journal.Outcome Bool
  | .waiting => .pending
  | .inside _ _ => .pending
  | .committed ended => .answered true ended
  | .failed => .failed

/-- A session; `begun` is the length of the journal when it came. -/
structure Session (σ S : Type*) where
  program : List S
  begun : ℕ
  phase : Phase σ S

namespace Session

def inside (x : Session σ S) : Bool :=
  match x.phase with
  | .inside _ _ => true
  | _ => false

def party (x : Session σ S) : Journal.Party (List S) Bool := ⟨x.program, x.begun, x.phase.outcome⟩

end Session

/-- The database. -/
structure Database (σ S : Type*) where
  committed : σ
  locked : Bool := false
  sessions : List (Session σ S) := []
  /-- history: the committed programs -/
  journal : List (Journal.Entry Unit (List S) Bool) := []

/-- What happens next. -/
inductive Action (S : Type*)
  | begin (program : List S)
  | lock (i : ℕ)
  | statement (i : ℕ)
  /-- the commit is executed; its answer arrives, or not -/
  | commit (i : ℕ) (answered : Bool)
  /-- a statement or the connection fails -/
  | rollback (i : ℕ)

/-- A whole program; it answers whether it succeeds. -/
def whole (exec : σ → S → Option σ) (s : σ) (_ : Unit) (p : List S) : σ × Bool :=
  match execAll exec s p with
  | some t => (t, true)
  | none => (s, false)

variable (exec : σ → S → Option σ)

/-- One action. -/
def step (db : Database σ S) : Action S → Option (Database σ S)
  | .begin program => some { db with
      sessions := db.sessions ++ [⟨program, db.journal.length, .waiting⟩] }
  | .lock i => (db.sessions[i]?).bind fun x =>
    match x.phase, db.locked with
    | .waiting, false => some { db with
        locked := true
        sessions := db.sessions.set i { x with phase := .inside db.committed x.program } }
    | _, _ => none
  | .statement i => (db.sessions[i]?).bind fun x =>
    match x.phase with
    | .inside view (a :: rest) => (exec view a).map fun view' => { db with
        sessions := db.sessions.set i { x with phase := .inside view' rest } }
    | _ => none
  | .commit i answered => (db.sessions[i]?).bind fun x =>
    match x.phase with
    | .inside view [] => some {
        committed := view
        locked := false
        sessions := db.sessions.set i { x with
          phase := if answered then .committed (db.journal.length + 1) else .failed }
        journal := db.journal ++ [⟨i, (), x.program, true⟩] }
    | _ => none
  | .rollback i => (db.sessions[i]?).bind fun x =>
    match x.phase with
    | .waiting => some { db with sessions := db.sessions.set i { x with phase := .failed } }
    | .inside _ _ => some { db with
        locked := false
        sessions := db.sessions.set i { x with phase := .failed } }
    | _ => none

/-- The database before any session. -/
def init (s : σ) : Database σ S := { committed := s }

/-! ## 3. The invariant -/

/-- What holds in every state. -/
structure Sound (start : σ) (db : Database σ S) : Prop where
  guarded : Mutex.Guarded Session.inside db.locked db.sessions
  linear : Journal.Linear (whole exec) start (db.sessions.map Session.party) db.journal db.committed
  /-- only programs that succeed are committed -/
  succeeded : ∀ e ∈ db.journal, e.reply = true
  /-- a session inside has executed a part of its program, on what is committed -/
  views : ∀ (i : ℕ) (x : Session σ S) (view : σ) (rest : List S), db.sessions[i]? = some x →
    x.phase = .inside view rest →
      ∃ done, x.program = done ++ rest ∧ execAll exec db.committed done = some view

variable {exec} {start : σ} {db db' : Database σ S}

theorem sound_init (start : σ) : Sound exec start (init start : Database σ S) :=
  ⟨Mutex.guarded_nil, .nil _ _, nofun, by simp [init]⟩

namespace Sound

variable {i : ℕ} {x : Session σ S}

/-- The party of a session. -/
theorem party_of (hx : db.sessions[i]? = some x) :
    (db.sessions.map Session.party)[i]? = some x.party := by
  rw [List.getElem?_map, hx, Option.map_some]

theorem begin (h : Sound exec start db) (program : List S) : Sound exec start { db with
    sessions := db.sessions ++ [⟨program, db.journal.length, .waiting⟩] } := by
  refine ⟨h.guarded.join rfl, ?_, h.succeeded, fun j y view rest hy hphase => ?_⟩
  · rw [List.map_append]
    exact h.linear.begin program
  · rcases Journal.getElem?_concat_cases hy with hold | ⟨-, rfl⟩
    · exact h.views j y view rest hold hphase
    · cases hphase

/-- The lock is taken. -/
theorem lock (h : Sound exec start db) (hx : db.sessions[i]? = some x) (hphase : x.phase = .waiting)
    (hfree : db.locked = false) : Sound exec start { db with
      locked := true
      sessions := db.sessions.set i { x with phase := .inside db.committed x.program } } := by
  have hguarded := h.guarded
  rw [hfree] at hguarded
  refine ⟨hguarded.enter hx rfl, ?_, h.succeeded, fun j y view rest hy hy' => ?_⟩
  · have hparty : Session.party { x with phase := .inside db.committed x.program } = x.party := by
      rw [Session.party, Session.party, hphase]
      rfl
    rw [List.map_set, hparty]
    exact h.linear.stay (party_of hx)
  · rcases Journal.getElem?_set_cases hx hy with ⟨-, rfl⟩ | ⟨-, hold⟩
    · cases hy'
      exact ⟨[], rfl, rfl⟩
    · exact h.views j y view rest hold hy'

/-- A statement is executed. -/
theorem statement (h : Sound exec start db) (hx : db.sessions[i]? = some x) {view view' : σ}
    {a : S} {rest : List S} (hphase : x.phase = .inside view (a :: rest))
    (hexec : exec view a = some view') : Sound exec start { db with
      sessions := db.sessions.set i { x with phase := .inside view' rest } } := by
  have hinside : x.inside = true := by rw [Session.inside, hphase]
  refine ⟨h.guarded.stay hx (by rw [hinside]; rfl), ?_, h.succeeded, fun j y v r hy hy' => ?_⟩
  · have hparty : Session.party { x with phase := .inside view' rest } = x.party := by
      rw [Session.party, Session.party, hphase]
      rfl
    rw [List.map_set, hparty]
    exact h.linear.stay (party_of hx)
  · rcases Journal.getElem?_set_cases hx hy with ⟨-, rfl⟩ | ⟨-, hold⟩
    · cases hy'
      obtain ⟨done, hprogram, hdone⟩ := h.views i x view (a :: rest) hx hphase
      refine ⟨done ++ [a], by simp [hprogram], ?_⟩
      rw [execAll_append, hdone]
      simp [hexec]
    · exact h.views j y v r hold hy'

/-- **A commit** is the execution of the whole program, at that instant. -/
theorem commit (h : Sound exec start db) (hx : db.sessions[i]? = some x) {view : σ}
    (hphase : x.phase = .inside view []) (answered : Bool) : Sound exec start {
      committed := view
      locked := false
      sessions := db.sessions.set i { x with
        phase := if answered then .committed (db.journal.length + 1) else .failed }
      journal := db.journal ++ [⟨i, (), x.program, true⟩] } := by
  have hinside : x.inside = true := by rw [Session.inside, hphase]
  obtain ⟨done, hprogram, hdone⟩ := h.views i x view [] hx hphase
  rw [List.append_nil] at hprogram
  have hwhole : whole exec db.committed () x.program = (view, true) := by
    rw [whole, hprogram, hdone]
  refine ⟨h.guarded.leave hx hinside (by cases answered <;> rfl), ?_, fun e he => ?_,
    fun j y v rest hy hy' => ?_⟩
  · have hpending : x.party.outcome = .pending := by rw [Session.party, hphase]; rfl
    have hreply : (whole exec db.committed () x.party.op).2 = true := by
      rw [Session.party, hwhole]
    have houtcome : Phase.outcome (σ := σ) (S := S)
        (if answered then .committed (db.journal.length + 1) else .failed) =
          .answered (whole exec db.committed () x.party.op).2 (db.journal.length + 1) ∨
        Phase.outcome (σ := σ) (S := S)
          (if answered then .committed (db.journal.length + 1) else .failed) = .failed := by
      rw [hreply]
      cases answered with
      | true => exact Or.inl rfl
      | false => exact Or.inr rfl
    have hlinear := h.linear.execute (party_of hx) hpending () houtcome
    rw [List.map_set]
    simpa [Session.party, hwhole] using hlinear
  · rcases List.mem_append.mp he with he | he
    · exact h.succeeded e he
    · rw [List.mem_singleton.mp he]
  · rcases Journal.getElem?_set_cases hx hy with ⟨-, rfl⟩ | ⟨hij, hold⟩
    · cases answered <;> cases hy'
    · -- nobody else is inside
      have hother := h.guarded.outside_of_ne hx hinside hold hij
      rw [Session.inside, hy'] at hother
      cases hother

/-- A session that has not ended gives up: nothing that is committed changes. -/
theorem rollback (h : Sound exec start db) (hx : db.sessions[i]? = some x) {locked : Bool}
    (hguarded : Mutex.Guarded Session.inside locked
      (db.sessions.set i { x with phase := .failed })) :
    Sound exec start { db with
      locked := locked
      sessions := db.sessions.set i { x with phase := .failed } } := by
  refine ⟨hguarded, ?_, h.succeeded, fun j y view rest hy hy' => ?_⟩
  · rw [List.map_set]
    exact h.linear.giveUp (party_of hx)
  · rcases Journal.getElem?_set_cases hx hy with ⟨-, rfl⟩ | ⟨-, hold⟩
    · cases hy'
    · exact h.views j y view rest hold hy'

/-- **The step rule.** -/
theorem step {action : Action S} (h : Sound exec start db)
    (hstep : Transactions.step exec db action = some db') : Sound exec start db' := by
  cases action with
  | begin program =>
    cases hstep
    exact h.begin program
  | lock i =>
    obtain ⟨x, hx, hstep⟩ := Option.bind_eq_some_iff.mp hstep
    split at hstep
    · cases hstep
      exact h.lock hx ‹_› ‹_›
    · cases hstep
  | statement i =>
    obtain ⟨x, hx, hstep⟩ := Option.bind_eq_some_iff.mp hstep
    split at hstep
    · rename_i view a rest hphase
      obtain ⟨view', hexec, rfl⟩ := Option.map_eq_some_iff.mp hstep
      exact h.statement hx hphase hexec
    · cases hstep
  | commit i answered =>
    obtain ⟨x, hx, hstep⟩ := Option.bind_eq_some_iff.mp hstep
    split at hstep
    · cases hstep
      exact h.commit hx ‹_› answered
    · cases hstep
  | rollback i =>
    obtain ⟨x, hx, hstep⟩ := Option.bind_eq_some_iff.mp hstep
    split at hstep
    · rename_i hphase
      cases hstep
      have hout : x.inside = false := by rw [Session.inside, hphase]
      exact h.rollback hx (h.guarded.stay hx (by rw [hout]; rfl))
    · rename_i view rest hphase
      cases hstep
      have hin : x.inside = true := by rw [Session.inside, hphase]
      exact h.rollback hx (h.guarded.leave hx hin rfl)
    · cases hstep

/-- **The run rule.** -/
theorem of_run {actions : List (Action S)}
    (hrun : Runs.run (Transactions.step exec) (init start) actions = some db) :
    Sound exec start db :=
  Runs.invariant (fun _ db => Sound exec start db) (sound_init start)
    (fun _ _ _ _ h hstep => h.step hstep) hrun

/-- A session whose commit was answered is in the journal. -/
theorem exists_entry (h : Sound exec start db) (hx : x ∈ db.sessions) {ended : ℕ}
    (hphase : x.phase = .committed ended) : ∃ e ∈ db.journal, e.op = x.program := by
  obtain ⟨i, hi⟩ := List.getElem?_of_mem hx
  have houtcome : x.party.outcome = .answered true ended := by rw [Session.party, hphase]; rfl
  obtain ⟨k, e, hk, he, -, -⟩ := h.linear.answered i x.party true ended (party_of hi) houtcome
  obtain ⟨p, hp, hop, -⟩ := h.linear.known k e hk
  rw [he, party_of hi] at hp
  exact ⟨e, List.mem_of_getElem? hk, hop.trans (Option.some.inj hp ▸ rfl)⟩

/-- A session that waits gets the free lock; if the lock is taken, one session is inside. -/
theorem goesOn (h : Sound exec start db) (hx : db.sessions[i]? = some x)
    (hphase : x.phase = .waiting) :
    (db.locked = false → (Transactions.step exec db (.lock i)).isSome = true) ∧
      (db.locked = true → ∃ (j : ℕ) (y : Session σ S) (view : σ) (rest : List S),
        db.sessions[j]? = some y ∧ y.phase = .inside view rest) := by
  refine ⟨fun hfree => ?_, fun hlocked => ?_⟩
  · simp [Transactions.step, hx, hphase, hfree]
  · obtain ⟨j, y, hy, hinside⟩ := h.guarded.held_iff.mp hlocked
    unfold Session.inside at hinside
    split at hinside
    · rename_i view rest hyphase
      exact ⟨j, y, view, rest, hy, hyphase⟩
    · cases hinside

end Sound

/-! ## 4. Releases -/

/-- The programs in the journal are beginnings of one: the longest of them has been executed. -/
theorem exists_longest (hexec : Settling exec) {all : List S} :
    ∀ {journal : List (Journal.Entry Unit (List S) Bool)} {s t : σ} {p : List S},
      Journal.Replays (whole exec) s journal t → (∀ e ∈ journal, e.reply = true) →
        (∀ e ∈ journal, e.op <+: all) → p <+: all → execAll exec start p = some s →
          ∃ q, q <+: all ∧ execAll exec start q = some t ∧ p <+: q ∧
            (∀ e ∈ journal, e.op <+: q) ∧ (q = p ∨ ∃ e ∈ journal, e.op = q)
  | [], s, t, p, hreplays, _, _, hp, hs => by
    obtain rfl : s = t := hreplays
    exact ⟨p, hp, hs, List.prefix_rfl, nofun, Or.inl rfl⟩
  | e :: journal, s, t, p, ⟨hreply, hreplays⟩, hsucceeded, hall, hp, hs => by
    obtain ⟨hsucceeds, hsucceeded⟩ := List.forall_mem_cons.mp hsucceeded
    obtain ⟨hop, hall⟩ := List.forall_mem_cons.mp hall
    have hwhole : execAll exec s e.op = some (whole exec s e.input e.op).1 := by
      rw [hsucceeds] at hreply
      unfold whole at hreply ⊢
      cases hrun : execAll exec s e.op with
      | none =>
        rw [hrun] at hreply
        cases hreply
      | some s' => rfl
    rcases List.prefix_or_prefix_of_prefix hp hop with hpe | hep
    · -- the entry goes on from where `p` has stopped
      rw [hexec.resume hs hpe] at hwhole
      obtain ⟨q, hq, ht, heq, hlater, hlongest⟩ :=
        exists_longest hexec hreplays hsucceeded hall hop hwhole
      refine ⟨q, hq, ht, hpe.trans heq, List.forall_mem_cons.mpr ⟨heq, hlater⟩, Or.inr ?_⟩
      rcases hlongest with rfl | ⟨e', he', rfl⟩
      · exact ⟨e, List.mem_cons_self, rfl⟩
      · exact ⟨e', List.mem_cons_of_mem e he', rfl⟩
    · -- the entry changes nothing
      rw [hexec.again hs hep.subset] at hwhole
      rw [← Option.some.inj hwhole] at hreplays
      obtain ⟨q, hq, ht, hpq, hlater, hlongest⟩ :=
        exists_longest hexec hreplays hsucceeded hall hp hs
      refine ⟨q, hq, ht, hpq, List.forall_mem_cons.mpr ⟨hep.trans hpq, hlater⟩, ?_⟩
      exact hlongest.imp_right fun ⟨e', he', hq'⟩ => ⟨e', List.mem_cons_of_mem e he', hq'⟩

/-- The sessions of a run come with the programs of its actions. -/
theorem program_of_run {P : List S → Prop} {actions : List (Action S)}
    (hprograms : ∀ p, .begin p ∈ actions → P p)
    (hrun : Runs.run (step exec) (init start) actions = some db) :
    ∀ x ∈ db.sessions, P x.program := by
  have halong : ∀ action ∈ actions, ∀ p, action = .begin p → P p := by
    rintro action haction p rfl
    exact hprograms p haction
  refine Runs.invariant_along (fun _ action => ∀ p, action = .begin p → P p)
    (fun _ db => ∀ x ∈ db.sessions, P x.program) (by simp [init]) ?_ hrun
    (Runs.along_of_forall actions _ halong)
  intro _ m action m' hm haction hstep
  have hset : ∀ (i : ℕ) (x : Session σ S) (phase : Phase σ S), m.sessions[i]? = some x →
      ∀ y ∈ m.sessions.set i { x with phase := phase }, P y.program := by
    intro i x phase hx y hy
    rcases List.mem_or_eq_of_mem_set hy with hy | rfl
    · exact hm y hy
    · exact hm x (List.mem_of_getElem? hx)
  cases action with
  | begin program =>
    cases hstep
    intro y hy
    rcases List.mem_append.mp hy with hy | hy
    · exact hm y hy
    · rw [List.mem_singleton.mp hy]
      exact haction program rfl
  | lock i | commit i answered =>
    obtain ⟨x, hx, hstep⟩ := Option.bind_eq_some_iff.mp hstep
    split at hstep <;> cases hstep
    exact hset i x _ hx
  | statement i =>
    obtain ⟨x, hx, hstep⟩ := Option.bind_eq_some_iff.mp hstep
    split at hstep
    · obtain ⟨view', -, rfl⟩ := Option.map_eq_some_iff.mp hstep
      exact hset i x _ hx
    · cases hstep
  | rollback i =>
    obtain ⟨x, hx, hstep⟩ := Option.bind_eq_some_iff.mp hstep
    split at hstep <;> cases hstep <;> exact hset i x _ hx

/-- So are those in the journal. -/
theorem Sound.op_of_program {P : List S → Prop} (h : Sound exec start db)
    (hP : ∀ x ∈ db.sessions, P x.program) : ∀ e ∈ db.journal, P e.op := by
  intro e he
  obtain ⟨k, hk⟩ := List.getElem?_of_mem he
  obtain ⟨p, hp, hop, -⟩ := h.linear.known k e hk
  rw [List.getElem?_map] at hp
  obtain ⟨x, hx, rfl⟩ := Option.map_eq_some_iff.mp hp
  rw [hop]
  exact hP x (List.mem_of_getElem? hx)

/-- **Programs that are beginnings of one**: what is committed is what the longest committed one
leaves, and if the whole one can be executed, no session fails because of the others. -/
theorem Sound.longest (hexec : Settling exec) (h : Sound exec start db) {all : List S}
    (hall : ∀ x ∈ db.sessions, x.program <+: all) :
    ∃ q, q <+: all ∧ execAll exec start q = some db.committed ∧ (∀ e ∈ db.journal, e.op <+: q) ∧
      (q = [] ∨ ∃ e ∈ db.journal, e.op = q) ∧
      ∀ final, execAll exec start all = some final → ∀ (i : ℕ) (x : Session σ S) (view : σ) (a : S)
        (rest : List S), db.sessions[i]? = some x → x.phase = .inside view (a :: rest) →
          (exec view a).isSome = true := by
  obtain ⟨q, hq, hcommitted, -, hjournal, hlongest⟩ := exists_longest hexec h.linear.replays
    h.succeeded (h.op_of_program (P := fun p => p <+: all) hall) List.nil_prefix rfl
  refine ⟨q, hq, hcommitted, hjournal, hlongest, fun final hfinal i x view a rest hx hphase => ?_⟩
  obtain ⟨done, hprogram, hview⟩ := h.views i x view (a :: rest) hx hphase
  obtain ⟨v, hv⟩ := hexec.exists_execAll hfinal hq (hall x (List.mem_of_getElem? hx)) hcommitted
  rw [hprogram, execAll_append, hview, Option.bind_some] at hv
  obtain ⟨w, hw, -⟩ := Option.bind_eq_some_iff.mp hv
  rw [hw]
  rfl

end Transactions
