/-
# `redis_state.py`: the scripts under `EVALSHA`

`RedisState` loads the two Lua scripts once and calls them by digest.  Redis may have forgotten a
script by then: `_eval` sends the body if `EVALSHA` raises `NoScriptError`.  The calls of any number
of processes are run side by side between their awaits (`ScriptSystem.step`), on one Redis whose
script cache may be emptied at any time, and whose answers may be lost.

Through all of that a call is what it looks like from outside, one execution of one script at one
instant (`scripts_atomic`): a script that raises `NoScriptError` has not run, so none runs twice.
-/
import Librouter.RedisState
import Librouter.Foundations.Journal
import Librouter.Foundations.Runs

namespace Librouter

/-! ## 1. Scripts and calls -/

/-- The bodies `RATELIMIT_LUA` and `CLAMP_LUA`. -/
inductive Script
  | ratelimit
  | clamp
deriving DecidableEq

/-- Short digests. -/
def Script.name : Script → String
  | .ratelimit => "ratelimit"
  | .clamp => "clamp"

theorem Script.name_injective : Function.Injective Script.name := by
  intro a b h
  cases a <;> cases b <;> simp [name] at h ⊢

/-- A script, executed at `nowMs` on the clock of Redis; `none` if it raises. -/
def Script.run (e : RedisEntry) (nowMs : ℚ) (argv : List ℚ) :
    Script → Option (RedisEntry × List ℤ)
  | .ratelimit =>
    match argv with
    | [argNowMs, rpmCap, tpmCap, refillRpmPm, refillTpmPm, reqTokens] =>
      let a := ratelimitLua e ⟨argNowMs, rpmCap, tpmCap, refillRpmPm, refillTpmPm, reqTokens⟩
      some (a.1.pexpire nowMs 600000,
        [if a.2.ok then 1 else 0, a.2.rpmRemaining, a.2.tpmRemaining])
    | _ => none
  | .clamp =>
    match argv with
    | [rpmObserved, tpmObserved] =>
      let a := clampLua e rpmObserved tpmObserved
      some (a.1, [a.2.1, a.2.2])
    | _ => none

/-- `ratelimit_acquire` and `ratelimit_clamp`, with their arguments. -/
inductive ScriptCall
  | acquire (a : RatelimitArgs)
  | clamp (rpmObserved tpmObserved : ℤ)

/-- What they return. -/
inductive ScriptReply
  | acquired (reply : RatelimitReply)
  | clamped (rpm tpm : ℤ)
deriving DecidableEq

namespace ScriptCall

def script : ScriptCall → Script
  | acquire _ => .ratelimit
  | clamp _ _ => .clamp

/-- The arguments after the key. -/
def argv : ScriptCall → List ℚ
  | acquire a => [a.nowMs, a.rpmCap, a.tpmCap, a.refillRpmPm, a.refillTpmPm, a.reqTokens]
  | clamp rpmObserved tpmObserved => [rpmObserved, tpmObserved]

/-- What the call makes of the answer; `none` for an `IndexError`. -/
def decode : ScriptCall → List ℤ → Option ScriptReply
  | acquire _, ok :: rpm :: tpm :: _ => some (.acquired ⟨decide (ok ≠ 0), rpm, tpm⟩)
  | clamp _ _, rpm :: tpm :: _ => some (.clamped rpm tpm)
  | _, _ => none

/-- **What a call is**: one execution of its script on its key. -/
def exec (r : Redis) (nowMs : ℚ) (op : String × ScriptCall) : Redis × ScriptReply :=
  match op.2 with
  | acquire a =>
    let x := ratelimitLua (r.read nowMs op.1) a
    (r.set op.1 (x.1.pexpire nowMs 600000), .acquired x.2)
  | clamp rpmObserved tpmObserved =>
    let x := clampLua (r.read nowMs op.1) rpmObserved tpmObserved
    (r.set op.1 x.1, .clamped x.2.1 x.2.2)

/-- The script of the call, on its arguments, is the call. -/
theorem run_script (call : ScriptCall) (r : Redis) (nowMs : ℚ) (key : String) :
    ∃ e raw, call.script.run (r.read nowMs key) nowMs call.argv = some (e, raw) ∧
      r.set key e = (exec r nowMs (key, call)).1 ∧
      call.decode raw = some (exec r nowMs (key, call)).2 := by
  cases call with
  | acquire a =>
    refine ⟨_, _, rfl, rfl, ?_⟩
    cases hok : (ratelimitLua (r.read nowMs key) a).2 with
    | mk ok rpm tpm => cases ok <;> simp [decode, exec, hok]
  | clamp rpmObserved tpmObserved => exact ⟨_, _, rfl, rfl, rfl⟩

end ScriptCall

/-! ## 2. The system -/

/-- `LoadedScripts`: the digests. -/
structure LoadedScripts where
  ratelimit : String
  clamp : String

/-- The digest that a call passes to `_eval`. -/
def LoadedScripts.sha (scripts : LoadedScripts) : Script → String
  | .ratelimit => scripts.ratelimit
  | .clamp => scripts.clamp

/-- Where a call stands. -/
inductive ScriptPc
  /-- in `script_load(RATELIMIT_LUA)` -/
  | loadingRatelimit
  /-- in `script_load(CLAMP_LUA)` -/
  | loadingClamp (ratelimit : String)
  /-- in `evalsha(sha, ...)` -/
  | evalsha (sha : String)
  /-- in `eval(body, ...)` -/
  | eval
  | answered (reply : ScriptReply)
  | raised

/-- It waits for an answer. -/
def ScriptPc.waiting : ScriptPc → Bool
  | .answered _ => false
  | .raised => false
  | _ => true

/-- A call. -/
structure ScriptTask where
  /-- the `RedisState` it is made on -/
  process : ℕ
  key : String
  call : ScriptCall
  pc : ScriptPc
  /-- history: how many scripts had been executed when it began, and when it was answered -/
  begun : ℕ
  ended : ℕ := 0

/-- The call, as its caller sees it. -/
def ScriptTask.party (task : ScriptTask) : Journal.Party (String × ScriptCall) ScriptReply where
  op := (task.key, task.call)
  begun := task.begun
  outcome :=
    match task.pc with
    | .answered reply => .answered reply task.ended
    | .raised => .failed
    | _ => .pending

/-- Redis, the processes and the calls. -/
structure ScriptSystem where
  redis : Redis
  /-- the script cache of Redis: bodies by digest -/
  loaded : Dict String Script
  /-- `_scripts` -/
  scripts : ℕ → Option LoadedScripts := fun _ => none
  tasks : List ScriptTask := []
  /-- history: the scripts executed -/
  journal : List (Journal.Entry ℚ (String × ScriptCall) ScriptReply) := []

/-- What Redis answers to a command. -/
inductive ScriptAnswer
  | digest (sha : String)
  | noScript
  | error
  | value (raw : List ℤ)

/-- What happens. -/
inductive ScriptEvent
  | call (process : ℕ) (key : String) (call : ScriptCall)
  /-- the command of call `i` is executed, and its answer arrives -/
  | reply (i : ℕ) (nowMs : ℚ)
  /-- it is executed, and the connection fails -/
  | lose (i : ℕ) (nowMs : ℚ)
  /-- it does not reach Redis -/
  | refuse (i : ℕ)
  /-- Redis empties its script cache -/
  | flush

namespace ScriptSystem

variable (digest : Script → String)

/-- Redis executes a body. -/
def evaluate (s : ScriptSystem) (nowMs : ℚ) (task : ScriptTask) (body : Script) :
    Redis × ScriptAnswer :=
  match body.run (s.redis.read nowMs task.key) nowMs task.call.argv with
  | some (e, raw) => (s.redis.set task.key e, .value raw)
  | none => (s.redis, .error)

/-- Redis executes the command of a call: the keys, the script cache, and the answer. -/
def command (s : ScriptSystem) (nowMs : ℚ) (task : ScriptTask) :
    Option (Redis × Dict String Script × ScriptAnswer) :=
  match task.pc with
  | .loadingRatelimit =>
    some (s.redis, s.loaded.set (digest .ratelimit) .ratelimit, .digest (digest .ratelimit))
  | .loadingClamp _ => some (s.redis, s.loaded.set (digest .clamp) .clamp, .digest (digest .clamp))
  | .evalsha sha =>
    match s.loaded.get? sha with
    | some body =>
      let x := s.evaluate nowMs task body
      some (x.1, s.loaded, x.2)
    | none => some (s.redis, s.loaded, .noScript)
  | .eval =>
    let x := s.evaluate nowMs task task.call.script
    some (x.1, s.loaded.set (digest task.call.script) task.call.script, x.2)
  | .answered _ => none
  | .raised => none

/-- What the call makes of the answer; `LoadedScripts` if it has loaded them. -/
def receive (task : ScriptTask) (answer : ScriptAnswer) : ScriptPc × Option LoadedScripts :=
  match task.pc, answer with
  | .loadingRatelimit, .digest sha => (.loadingClamp sha, none)
  | .loadingClamp ratelimit, .digest sha =>
    let scripts : LoadedScripts := ⟨ratelimit, sha⟩
    (.evalsha (scripts.sha task.call.script), some scripts)
  | .evalsha _, .noScript => (.eval, none)
  | _, .value raw =>
    match task.call.decode raw with
    | some reply => (.answered reply, none)
    | none => (.raised, none)
  | _, _ => (.raised, none)

/-- History: a script that has run. -/
def note (s : ScriptSystem) (i : ℕ) (nowMs : ℚ) (task : ScriptTask) :
    ScriptAnswer → List (Journal.Entry ℚ (String × ScriptCall) ScriptReply)
  | .value raw =>
    match task.call.decode raw with
    | some reply => s.journal ++ [⟨i, nowMs, (task.key, task.call), reply⟩]
    | none => s.journal
  | _ => s.journal

/-- One event. -/
def step (s : ScriptSystem) : ScriptEvent → Option ScriptSystem
  | .call process key call =>
    let pc := match s.scripts process with
      | some scripts => .evalsha (scripts.sha call.script)
      | none => .loadingRatelimit
    some { s with tasks := s.tasks ++ [⟨process, key, call, pc, s.journal.length, 0⟩] }
  | .reply i nowMs =>
    (s.tasks[i]?).bind fun task =>
    (s.command digest nowMs task).map fun (redis, loaded, answer) =>
      let journal := s.note i nowMs task answer
      let (pc, scripts) := receive task answer
      { redis := redis
        loaded := loaded
        scripts := Function.update s.scripts task.process (scripts.or (s.scripts task.process))
        tasks := s.tasks.set i { task with pc := pc, ended := journal.length }
        journal := journal }
  | .lose i nowMs =>
    (s.tasks[i]?).bind fun task =>
    (s.command digest nowMs task).map fun (redis, loaded, answer) =>
      { s with
        redis := redis
        loaded := loaded
        tasks := s.tasks.set i { task with pc := .raised }
        journal := s.note i nowMs task answer }
  | .refuse i =>
    (s.tasks[i]?).bind fun task =>
    if task.pc.waiting then some { s with tasks := s.tasks.set i { task with pc := .raised } }
    else none
  | .flush => some { s with loaded := Dict.empty }

/-- Before the first call. -/
def init (redis : Redis) (loaded : Dict String Script) : ScriptSystem :=
  { redis := redis, loaded := loaded }

end ScriptSystem

/-! ## 3. One command -/

/-- What a call knows of the digests. -/
def ScriptTask.Knows (digest : Script → String) (task : ScriptTask) : Prop :=
  match task.pc with
  | .loadingClamp ratelimit => ratelimit = digest .ratelimit
  | .evalsha sha => sha = digest task.call.script
  | _ => True

/-- The script cache holds bodies under their digests. -/
def Digested (digest : Script → String) (loaded : Dict String Script) : Prop :=
  ∀ sha body, loaded.get? sha = some body → digest body = sha

section Command

variable {digest : Script → String}

theorem Digested.set {loaded : Dict String Script} (h : Digested digest loaded) (body : Script) :
    Digested digest (loaded.set (digest body) body) := by
  intro sha body' hget
  by_cases hsha : sha = digest body
  · subst hsha
    rw [Dict.get?_set_self] at hget
    rw [Option.some.inj hget]
  · rw [Dict.get?_set_ne _ _ hsha] at hget
    exact h sha body' hget

theorem digested_empty : Digested digest Dict.empty := by
  intro sha body hget
  rw [Dict.get?_empty] at hget
  cases hget

/-- What Redis has done, and where its answer leaves the call: one step closer to the script, or
answered with what the script returned. -/
inductive Commanded (digest : Script → String) (s : ScriptSystem) (nowMs : ℚ) (task : ScriptTask) :
    Redis → ScriptAnswer → Prop
  | closer {answer : ScriptAnswer} (hvalue : ∀ raw, answer ≠ .value raw)
      (hwaits : (ScriptSystem.receive task answer).1.waiting = true)
      (hknows : ScriptTask.Knows digest { task with pc := (ScriptSystem.receive task answer).1 })
      (hscripts : ∀ scripts ∈ (ScriptSystem.receive task answer).2, ∀ body,
        scripts.sha body = digest body) :
      Commanded digest s nowMs task s.redis answer
  | executed {raw : List ℤ}
      (hdecode : task.call.decode raw =
        some (ScriptCall.exec s.redis nowMs (task.key, task.call)).2)
      (hreceive : ScriptSystem.receive task (.value raw) =
        (.answered (ScriptCall.exec s.redis nowMs (task.key, task.call)).2, none)) :
      Commanded digest s nowMs task (ScriptCall.exec s.redis nowMs (task.key, task.call)).1
        (.value raw)

/-- The script of a call, executed. -/
theorem ScriptSystem.evaluate_script (s : ScriptSystem) (nowMs : ℚ) (task : ScriptTask) :
    ∃ raw, s.evaluate nowMs task task.call.script =
        ((ScriptCall.exec s.redis nowMs (task.key, task.call)).1, .value raw) ∧
      task.call.decode raw = some (ScriptCall.exec s.redis nowMs (task.key, task.call)).2 := by
  obtain ⟨e, raw, hrun, hredis, hdecode⟩ := task.call.run_script s.redis nowMs task.key
  refine ⟨raw, ?_, hdecode⟩
  rw [ScriptSystem.evaluate, hrun, ← hredis]

/-- **A command of a call.** -/
theorem ScriptSystem.commanded {s : ScriptSystem} {nowMs : ℚ} {task : ScriptTask} {redis : Redis}
    {loaded : Dict String Script} {answer : ScriptAnswer} (hdigest : Function.Injective digest)
    (hloaded : Digested digest s.loaded) (hknows : task.Knows digest)
    (h : s.command digest nowMs task = some (redis, loaded, answer)) :
    Digested digest loaded ∧ Commanded digest s nowMs task redis answer := by
  obtain ⟨raw, heval, hdecode⟩ := s.evaluate_script nowMs task
  unfold ScriptSystem.command at h
  unfold ScriptTask.Knows at hknows
  split at h <;> rename_i hpc <;> rw [hpc] at hknows
  · cases h
    refine ⟨hloaded.set _, .closer nofun ?_ ?_ ?_⟩ <;> simp [receive, hpc, ScriptPc.waiting,
      ScriptTask.Knows]
  · cases h
    obtain rfl := hknows
    have hsha : ∀ body,
        LoadedScripts.sha ⟨digest .ratelimit, digest .clamp⟩ body = digest body := by
      intro body
      cases body <;> rfl
    refine ⟨hloaded.set _, .closer nofun ?_ ?_ ?_⟩ <;> simp [receive, hpc, ScriptPc.waiting,
      ScriptTask.Knows, hsha]
  · obtain rfl := hknows
    split at h
    · rename_i body hget
      -- the digest is the one of the script of the call
      obtain rfl := hdigest (hloaded _ _ hget)
      rw [heval] at h
      cases h
      exact ⟨hloaded, .executed hdecode (by simp [receive, hpc, hdecode])⟩
    · cases h
      refine ⟨hloaded, .closer nofun ?_ ?_ ?_⟩ <;> simp [receive, hpc, ScriptPc.waiting,
        ScriptTask.Knows]
  · rw [heval] at h
    cases h
    exact ⟨hloaded.set _, .executed hdecode (by simp [receive, hpc, hdecode])⟩
  · cases h
  · cases h

theorem ScriptSystem.waiting_of_command {s : ScriptSystem} {nowMs : ℚ} {task : ScriptTask}
    {x : Redis × Dict String Script × ScriptAnswer} (h : s.command digest nowMs task = some x) :
    task.pc.waiting = true := by
  unfold ScriptSystem.command at h
  split at h <;> rename_i hpc <;> rw [hpc]
  all_goals first | rfl | cases h

theorem ScriptSystem.exists_command (s : ScriptSystem) (digest : Script → String) (nowMs : ℚ)
    {task : ScriptTask} (h : task.pc.waiting = true) :
    ∃ x, s.command digest nowMs task = some x := by
  unfold ScriptSystem.command
  cases hpc : task.pc with
  | loadingRatelimit | loadingClamp | eval => exact ⟨_, rfl⟩
  | evalsha sha =>
    dsimp only
    split <;> exact ⟨_, rfl⟩
  | answered | raised =>
    rw [hpc] at h
    cases h

end Command

/-- A call that waits is pending. -/
theorem ScriptTask.party_of_waiting {task : ScriptTask} (h : task.pc.waiting = true) :
    task.party = ⟨(task.key, task.call), task.begun, .pending⟩ := by
  unfold party
  cases hpc : task.pc with
  | answered | raised =>
    rw [hpc] at h
    cases h
  | loadingRatelimit | loadingClamp | evalsha | eval => rfl

theorem ScriptTask.party_of_answered (task : ScriptTask) (reply : ScriptReply) (ended : ℕ) :
    ScriptTask.party { task with pc := .answered reply, ended := ended } =
      ⟨(task.key, task.call), task.begun, .answered reply ended⟩ := rfl

theorem ScriptSystem.getElem?_party {digest : Script → String} {s : ScriptSystem} {i : ℕ}
    {nowMs : ℚ} {task : ScriptTask} {x : Redis × Dict String Script × ScriptAnswer}
    (htask : s.tasks[i]? = some task) (hcommand : s.command digest nowMs task = some x) :
    (s.tasks.map ScriptTask.party)[i]? = some ⟨(task.key, task.call), task.begun, .pending⟩ := by
  rw [List.getElem?_map, htask, Option.map_some,
    ScriptTask.party_of_waiting (ScriptSystem.waiting_of_command hcommand)]

/-! ## 4. Runs -/

section Runs

variable {digest : Script → String} {redis : Redis} {s s' : ScriptSystem}

/-- What holds in every state. -/
structure ScriptInv (digest : Script → String) (redis : Redis) (s : ScriptSystem) : Prop where
  loaded : Digested digest s.loaded
  scripts : ∀ process scripts, s.scripts process = some scripts →
    ∀ body, scripts.sha body = digest body
  knows : ∀ task ∈ s.tasks, task.Knows digest
  linear : Journal.Linear ScriptCall.exec redis (s.tasks.map ScriptTask.party) s.journal s.redis

/-- A call that is given up. -/
theorem ScriptInv.giveUp {i : ℕ} {task : ScriptTask} (h : ScriptInv digest redis s)
    (htask : s.tasks[i]? = some task) :
    ScriptInv digest redis { s with tasks := s.tasks.set i { task with pc := .raised } } := by
  refine ⟨h.loaded, h.scripts, fun task' htask' => ?_, ?_⟩
  · rcases List.mem_or_eq_of_mem_set htask' with hold | rfl
    · exact h.knows task' hold
    · trivial
  · rw [List.map_set]
    exact h.linear.giveUp (by rw [List.getElem?_map, htask]; rfl)

section Answer

variable {i : ℕ} {nowMs : ℚ} {task : ScriptTask} {redis' : Redis} {loaded : Dict String Script}
  {answer : ScriptAnswer}

/-- A command is executed, and its answer is lost. -/
theorem ScriptInv.lose (hdigest : Function.Injective digest) (h : ScriptInv digest redis s)
    (htask : s.tasks[i]? = some task)
    (hcommand : s.command digest nowMs task = some (redis', loaded, answer)) :
    ScriptInv digest redis { s with
      redis := redis'
      loaded := loaded
      tasks := s.tasks.set i { task with pc := .raised }
      journal := s.note i nowMs task answer } := by
  have hmem := ScriptSystem.getElem?_party htask hcommand
  obtain ⟨hloaded, hcommanded⟩ :=
    s.commanded hdigest h.loaded (h.knows task (List.mem_of_getElem? htask)) hcommand
  have hgiven := h.giveUp htask
  refine ⟨hloaded, h.scripts, hgiven.knows, ?_⟩
  cases hcommanded with
  | closer hvalue =>
    cases answer with
    | value raw => exact absurd rfl (hvalue raw)
    | digest | noScript | error => exact hgiven.linear
  | executed hdecode =>
    dsimp only [ScriptSystem.note]
    rw [hdecode, List.map_set]
    exact h.linear.execute hmem rfl nowMs (Or.inr rfl)

/-- A command is executed, and its answer arrives. -/
theorem ScriptInv.reply (hdigest : Function.Injective digest) (h : ScriptInv digest redis s)
    (htask : s.tasks[i]? = some task)
    (hcommand : s.command digest nowMs task = some (redis', loaded, answer)) :
    ScriptInv digest redis {
      redis := redis'
      loaded := loaded
      scripts := Function.update s.scripts task.process
        ((ScriptSystem.receive task answer).2.or (s.scripts task.process))
      tasks := s.tasks.set i { task with
        pc := (ScriptSystem.receive task answer).1
        ended := (s.note i nowMs task answer).length }
      journal := s.note i nowMs task answer } := by
  have hmem := ScriptSystem.getElem?_party htask hcommand
  obtain ⟨hloaded, hcommanded⟩ :=
    s.commanded hdigest h.loaded (h.knows task (List.mem_of_getElem? htask)) hcommand
  cases hcommanded with
  | closer hvalue hwaits hknows hscripts =>
    have hnote : s.note i nowMs task answer = s.journal := by
      cases answer with
      | value raw => exact absurd rfl (hvalue raw)
      | digest | noScript | error => rfl
    refine ⟨hloaded, fun process scripts hget => ?_, fun task' htask' => ?_, ?_⟩
    · dsimp only at hget
      by_cases hprocess : process = task.process
      · subst hprocess
        rw [Function.update_self] at hget
        rcases Option.or_eq_some_iff.mp hget with hnew | ⟨-, hold⟩
        · exact hscripts scripts hnew
        · exact h.scripts _ scripts hold
      · rw [Function.update_of_ne hprocess] at hget
        exact h.scripts process scripts hget
    · rcases List.mem_or_eq_of_mem_set htask' with hold | rfl
      · exact h.knows task' hold
      · exact hknows
    · rw [List.map_set, ScriptTask.party_of_waiting hwaits, hnote]
      exact h.linear.stay hmem
  | @executed raw hdecode hreceive =>
    have hnote : s.note i nowMs task (.value raw) = s.journal ++ [⟨i, nowMs, (task.key, task.call),
        (ScriptCall.exec s.redis nowMs (task.key, task.call)).2⟩] := by
      rw [ScriptSystem.note, hdecode]
    rw [hreceive, hnote]
    refine ⟨hloaded, fun process scripts hget => ?_, fun task' htask' => ?_, ?_⟩
    · dsimp only at hget
      rw [Option.none_or, Function.update_eq_self] at hget
      exact h.scripts process scripts hget
    · rcases List.mem_or_eq_of_mem_set htask' with hold | rfl
      · exact h.knows task' hold
      · trivial
    · rw [List.map_set, ScriptTask.party_of_answered, List.length_append, List.length_singleton]
      exact h.linear.execute hmem rfl nowMs (Or.inl rfl)

end Answer

theorem ScriptInv.step {event : ScriptEvent} (hdigest : Function.Injective digest)
    (h : ScriptInv digest redis s) (hstep : s.step digest event = some s') :
    ScriptInv digest redis s' := by
  cases event with
  | call process key call =>
    cases hstep
    refine ⟨h.loaded, h.scripts, fun task htask => ?_, ?_⟩
    · rcases List.mem_append.mp htask with hold | hnew
      · exact h.knows task hold
      · rw [List.mem_singleton.mp hnew]
        cases hscripts : s.scripts process with
        | none => trivial
        | some scripts => exact h.scripts process scripts hscripts call.script
    · rw [List.map_append, List.map_singleton, ScriptTask.party_of_waiting]
      · exact h.linear.begin (key, call)
      · cases s.scripts process <;> rfl
  | flush =>
    cases hstep
    exact ⟨digested_empty, h.scripts, h.knows, h.linear⟩
  | refuse i =>
    obtain ⟨task, htask, hstep⟩ := Option.bind_eq_some_iff.mp hstep
    obtain ⟨-, hstep⟩ := Option.ite_none_right_eq_some.mp hstep
    cases hstep
    exact h.giveUp htask
  | lose i nowMs =>
    obtain ⟨task, htask, hstep⟩ := Option.bind_eq_some_iff.mp hstep
    obtain ⟨⟨redis', loaded, answer⟩, hcommand, rfl⟩ := Option.map_eq_some_iff.mp hstep
    exact h.lose hdigest htask hcommand
  | reply i nowMs =>
    obtain ⟨task, htask, hstep⟩ := Option.bind_eq_some_iff.mp hstep
    obtain ⟨⟨redis', loaded, answer⟩, hcommand, rfl⟩ := Option.map_eq_some_iff.mp hstep
    exact h.reply hdigest htask hcommand

/-- How many answers a call still waits for, at most. -/
def ScriptPc.rank : ScriptPc → ℕ
  | .loadingRatelimit => 4
  | .loadingClamp _ => 3
  | .evalsha _ => 2
  | .eval => 1
  | .answered _ => 0
  | .raised => 0

theorem ScriptPc.rank_pos {pc : ScriptPc} (h : pc.waiting = true) : 0 < pc.rank := by
  cases pc with
  | loadingRatelimit | loadingClamp | evalsha | eval => exact Nat.succ_pos _
  | answered | raised => cases h

theorem ScriptPc.rank_le (pc : ScriptPc) : pc.rank ≤ 4 := by
  cases pc <;> simp [rank]

/-- An answer brings a call closer to its end. -/
theorem ScriptSystem.rank_receive {task : ScriptTask} (h : task.pc.waiting = true)
    (answer : ScriptAnswer) : (receive task answer).1.rank < task.pc.rank := by
  have hpos := ScriptPc.rank_pos h
  unfold receive
  split
  · rename_i hpc
    rw [hpc]
    exact Nat.lt_succ_self _
  · rename_i hpc
    rw [hpc]
    exact Nat.lt_succ_self _
  · rename_i hpc
    rw [hpc]
    exact Nat.lt_succ_self _
  · split <;> exact hpos
  · exact hpos

/-- The event is about the command of call `i`. -/
def ScriptEvent.concerns (i : ℕ) : ScriptEvent → Bool
  | .reply j _ => decide (j = i)
  | .lose j _ => decide (j = i)
  | .refuse j => decide (j = i)
  | .call _ _ _ => false
  | .flush => false

/-- No call waits for more than four answers. -/
structure Bounded (es : List ScriptEvent) (s : ScriptSystem) : Prop where
  begun : ∀ i task, s.tasks[i]? = some task →
    es.countP (ScriptEvent.concerns i) + task.pc.rank ≤ 4
  fresh : ∀ i, s.tasks.length ≤ i → es.countP (ScriptEvent.concerns i) = 0

theorem Bounded.other {es : List ScriptEvent} {event : ScriptEvent} (h : Bounded es s)
    (hother : ∀ i, event.concerns i = false) (htasks : s'.tasks = s.tasks) :
    Bounded (es ++ [event]) s' := by
  have hcount : ∀ i, (es ++ [event]).countP (ScriptEvent.concerns i) =
      es.countP (ScriptEvent.concerns i) := by
    intro i
    simp [List.countP_append, hother i]
  refine ⟨fun i task htask => ?_, fun i hi => ?_⟩
  · rw [hcount]
    exact h.begun i task (htasks ▸ htask)
  · rw [hcount]
    exact h.fresh i (htasks ▸ hi)

/-- A call moves. -/
theorem Bounded.move {es : List ScriptEvent} {event : ScriptEvent} {i : ℕ} {task task' : ScriptTask}
    (h : Bounded es s) (hevent : ∀ j, event.concerns j = decide (i = j))
    (htask : s.tasks[i]? = some task) (htasks : s'.tasks = s.tasks.set i task')
    (hrank : task'.pc.rank < task.pc.rank) : Bounded (es ++ [event]) s' := by
  have hcount : ∀ j, (es ++ [event]).countP (ScriptEvent.concerns j) =
      es.countP (ScriptEvent.concerns j) + if i = j then 1 else 0 := by
    intro j
    by_cases hij : i = j <;> simp [List.countP_append, hevent j, hij]
  refine ⟨fun j x hx => ?_, fun j hj => ?_⟩
  · rw [htasks] at hx
    rw [hcount]
    rcases Journal.getElem?_set_cases htask hx with ⟨rfl, rfl⟩ | ⟨hij, hold⟩
    · have hbegun := h.begun i task htask
      rw [if_pos rfl]
      omega
    · rw [if_neg hij, Nat.add_zero]
      exact h.begun j x hold
  · rw [htasks, List.length_set] at hj
    have hlt := (List.getElem?_eq_some_iff.mp htask).1
    rw [hcount, if_neg (by omega), Nat.add_zero]
    exact h.fresh j hj

theorem Bounded.step {es : List ScriptEvent} {event : ScriptEvent} (h : Bounded es s)
    (hstep : s.step digest event = some s') : Bounded (es ++ [event]) s' := by
  cases event with
  | call process key call =>
    cases hstep
    have hcount : ∀ i, (es ++ [ScriptEvent.call process key call]).countP
        (ScriptEvent.concerns i) = es.countP (ScriptEvent.concerns i) := by
      intro i
      simp [List.countP_append, ScriptEvent.concerns]
    refine ⟨fun i task htask => ?_, fun i hi => ?_⟩
    · rw [hcount]
      rcases Journal.getElem?_concat_cases htask with hold | ⟨rfl, -⟩
      · exact h.begun i task hold
      · rw [h.fresh _ le_rfl, Nat.zero_add]
        exact task.pc.rank_le
    · rw [hcount]
      rw [List.length_append] at hi
      exact h.fresh i ((Nat.le_add_right _ _).trans hi)
  | flush =>
    cases hstep
    exact h.other (fun _ => rfl) rfl
  | refuse i =>
    obtain ⟨task, htask, hstep⟩ := Option.bind_eq_some_iff.mp hstep
    obtain ⟨hwaits, hstep⟩ := Option.ite_none_right_eq_some.mp hstep
    cases hstep
    exact h.move (fun _ => rfl) htask rfl (ScriptPc.rank_pos hwaits)
  | lose i nowMs =>
    obtain ⟨task, htask, hstep⟩ := Option.bind_eq_some_iff.mp hstep
    obtain ⟨_, hcommand, rfl⟩ := Option.map_eq_some_iff.mp hstep
    have hwaits := ScriptSystem.waiting_of_command hcommand
    exact h.move (fun _ => rfl) htask rfl (ScriptPc.rank_pos hwaits)
  | reply i nowMs =>
    obtain ⟨task, htask, hstep⟩ := Option.bind_eq_some_iff.mp hstep
    obtain ⟨_, hcommand, rfl⟩ := Option.map_eq_some_iff.mp hstep
    have hwaits := ScriptSystem.waiting_of_command hcommand
    exact h.move (fun _ => rfl) htask rfl (ScriptSystem.rank_receive hwaits _)

/-! ## 5. The calls are atomic -/

/-- **What the callers see**: each call is one execution of its script, or none, and it ends. -/
structure ScriptSystem.Served (digest : Script → String) (redis : Redis) (es : List ScriptEvent)
    (s : ScriptSystem) : Prop where
  /-- Redis is as if the calls had been executed one after another, each between its beginning and
  its end, and every answer is the one of that execution -/
  linear : Journal.Linear ScriptCall.exec redis (s.tasks.map ScriptTask.party) s.journal s.redis
  /-- a call that waits can be answered -/
  goesOn : ∀ i task, s.tasks[i]? = some task → task.pc.waiting = true → ∀ nowMs,
    ∃ s', s.step digest (.reply i nowMs) = some s'
  /-- and waits for four answers at most, however often Redis forgets the scripts -/
  bounded : ∀ i, es.countP (ScriptEvent.concerns i) ≤ 4

/-- **The calls are atomic**, in every run: whichever processes make them, whatever order their
commands reach Redis in, whenever it empties its script cache and whichever answers are lost. -/
theorem scripts_atomic {loaded : Dict String Script} {es : List ScriptEvent}
    (hdigest : Function.Injective digest) (hloaded : Digested digest loaded)
    (hrun : Runs.run (ScriptSystem.step digest) (ScriptSystem.init redis loaded) es = some s) :
    s.Served digest redis es := by
  have hinit : ScriptInv digest redis (ScriptSystem.init redis loaded) :=
    ⟨hloaded, by simp [ScriptSystem.init], by simp [ScriptSystem.init], .nil _ _⟩
  have hbound : Bounded [] (ScriptSystem.init redis loaded) :=
    ⟨by simp [ScriptSystem.init], fun _ _ => rfl⟩
  obtain ⟨hinv, hbounded⟩ := Runs.invariant (fun es s => ScriptInv digest redis s ∧ Bounded es s)
    ⟨hinit, hbound⟩ (fun _ _ _ _ h hstep => ⟨h.1.step hdigest hstep, h.2.step hstep⟩) hrun
  refine ⟨hinv.linear, fun i task htask hwaits nowMs => ?_, fun i => ?_⟩
  · obtain ⟨x, hx⟩ := s.exists_command digest nowMs hwaits
    exact ⟨_, Option.bind_eq_some_iff.mpr ⟨task, htask, Option.map_eq_some_iff.mpr ⟨x, hx, rfl⟩⟩⟩
  · rcases lt_or_ge i s.tasks.length with hlt | hge
    · have hbegun := hbounded.begun i s.tasks[i] (List.getElem?_eq_getElem hlt)
      omega
    · rw [hbounded.fresh i hge]
      exact Nat.zero_le _

end Runs

/-- What a call has been answered. -/
def ScriptPc.reply? : ScriptPc → Option ScriptReply
  | .answered reply => some reply
  | _ => none

/-- Two processes ask a bucket of one request a minute; Redis forgets the scripts after the first
has loaded them. -/
def flushedEvents : List ScriptEvent :=
  let call := ScriptCall.acquire ⟨0, 1, 1000, 1 / 60000, 1 / 60, 10⟩
  [.call 0 "gw:bkt:openai:gpt" call, .reply 0 0, .reply 0 0, .flush,
    .call 1 "gw:bkt:openai:gpt" call, .reply 0 0, .reply 0 0, .reply 1 0, .reply 1 0, .reply 1 0]

theorem scripts_atomic_flushed : ∃ s,
    Runs.run (ScriptSystem.step Script.name) (ScriptSystem.init Dict.empty Dict.empty)
      flushedEvents = some s ∧
    s.tasks.map (fun task => task.pc.reply?) =
      [some (.acquired ⟨true, 0, 990⟩), some (.acquired ⟨false, 0, 990⟩)] ∧
    s.Served Script.name Dict.empty flushedEvents := by
  have hanswers : (Runs.run (ScriptSystem.step Script.name)
      (ScriptSystem.init Dict.empty Dict.empty) flushedEvents).any (fun s => decide
        (s.tasks.map (fun task => task.pc.reply?) =
          [some (.acquired ⟨true, 0, 990⟩), some (.acquired ⟨false, 0, 990⟩)])) = true := by
    decide +kernel
  obtain ⟨s, hrun, hs⟩ := (Option.any_eq_true _ _).mp hanswers
  exact ⟨s, hrun, of_decide_eq_true hs, scripts_atomic Script.name_injective digested_empty hrun⟩

end Librouter
