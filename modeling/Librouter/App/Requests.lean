/-
# The requests of the wired app

Inside the app a request goes through the same states as on its own: whatever the other requests
and the ticks do in between, the app's step on a request is a step of `ChatTask.step`
(`request_isRun`).  So what is proved of every run of one request holds of every request of
every run of the app; `answered_in_buffer` takes the records of a request to the queue they share.
-/
import Librouter.App.Wiring
import Librouter.App.Accounted

namespace Librouter

/-! ## 1. Each request is a run of its own -/

/-- The state of the request is one that `chat_completions` reaches. -/
def ChatTask.IsRun (router : Router) (c : ChatTask) : Prop :=
  ∃ body es, Runs.run (ChatTask.step router) (ChatTask.start body) es = some c

theorem ChatTask.IsRun.step {router : Router} {c c' : ChatTask} {event : ChatEvent}
    (h : c.IsRun router) (hstep : c.step router event = some c') : c'.IsRun router := by
  obtain ⟨body, es, hrun⟩ := h
  exact ⟨body, es ++ [event], Runs.run_concat_iff.mpr ⟨c, hrun, hstep⟩⟩

/-- A request only ever enqueues more. -/
theorem ChatTask.enqueued_step {router : Router} {c c' : ChatTask} {event : ChatEvent}
    (hstep : c.step router event = some c') :
    c'.enqueued = c.enqueued ++ c'.enqueued.drop c.enqueued.length := by
  have hproceed : ∀ task, c.enqueued <+: (c.proceed task).enqueued := by
    intro task
    unfold proceed
    split
    · exact List.prefix_append _ _
    · exact List.prefix_rfl
  have hprefix : c.enqueued <+: c'.enqueued := by
    cases moves_of_step hstep with
    | uncapped | underCap | route => exact hproceed _
    | noCaller | capped | exhausted | resolveFails | usageFails => exact List.prefix_rfl
  exact List.prefix_iff_eq_append.mp hprefix |>.symm

/-! ## 2. The shared queue -/

/-- One element of a list grows: so does what is collected from all of them. -/
theorem flatMap_set_perm {α β : Type*} {f : α → List β} {a a' : α} {new : List β}
    (hnew : f a' = f a ++ new) : ∀ {l : List α} {i : ℕ}, l[i]? = some a →
      ((l.set i a').flatMap f).Perm (l.flatMap f ++ new)
  | b :: l, 0, h => by
    obtain rfl : b = a := by simpa using h
    rw [List.set_cons_zero, List.flatMap_cons, List.flatMap_cons, hnew, List.append_assoc,
      List.append_assoc]
    exact List.perm_append_comm.append_left _
  | b :: l, i + 1, h => by
    rw [List.set_cons_succ, List.flatMap_cons, List.flatMap_cons, List.append_assoc]
    exact (flatMap_set_perm hnew (by simpa using h)).append_left _

/-- One element of a list changes, but not in what is looked at. -/
theorem map_set_of_eq {α β : Type*} {f : α → β} {a a' : α} : ∀ {l : List α} {i : ℕ},
    l[i]? = some a → f a' = f a → (l.set i a').map f = l.map f
  | b :: l, 0, h, hf => by
    obtain rfl : b = a := by simpa using h
    rw [List.set_cons_zero, List.map_cons, List.map_cons, hf]
  | b :: l, i + 1, h, hf => by
    rw [List.set_cons_succ, List.map_cons, List.map_cons]
    exact congrArg (f b :: ·) (map_set_of_eq (by simpa using h) hf)

/-- What holds of the requests and their queue in every state of the app. -/
structure AppState.Linked (app : App) (s : AppState) : Prop where
  runs : ∀ c ∈ s.requests, c.IsRun app.router
  buffer : s.accounting.droppedTotal = 0 →
    s.accounting.buffer.Perm (s.requests.flatMap ChatTask.enqueued)

namespace AppState.Linked

variable {app : App} {s s' : AppState}

theorem stepRequest {now : ℚ} {i : ℕ} {answer : Answer} (h : s.Linked app)
    (hstep : app.stepRequest s now i answer = some s') : s'.Linked app := by
  obtain ⟨c, hc, hstep⟩ := Option.bind_eq_some_iff.mp hstep
  obtain ⟨⟨r, event⟩, -, hstep⟩ := Option.bind_eq_some_iff.mp hstep
  obtain ⟨c', hc', rfl⟩ := Option.map_eq_some_iff.mp hstep
  constructor
  · intro d hd
    rcases List.mem_or_eq_of_mem_set hd with hd | rfl
    · exact h.runs d hd
    · exact (h.runs c (List.mem_of_getElem? hc)).step hc'
  · intro hdropped
    obtain ⟨hzero, hbuffer⟩ := AccountingQueue.enqueueAll_of_noDrop hdropped
    have hgrown := flatMap_set_perm (ChatTask.enqueued_step hc') hc
    calc (s.accounting.enqueueAll (c'.enqueued.drop c.enqueued.length)).buffer
        = s.accounting.buffer ++ c'.enqueued.drop c.enqueued.length := hbuffer
      _ |>.Perm (s.requests.flatMap ChatTask.enqueued ++ c'.enqueued.drop c.enqueued.length) :=
          (h.buffer hzero).append_right _
      _ |>.Perm ((s.requests.set i c').flatMap ChatTask.enqueued) := hgrown.symm

theorem act {e : AppEvent} (h : s.Linked app) (hact : app.act s e = some s') : s'.Linked app := by
  unfold App.act at hact
  split at hact
  · obtain ⟨refresh, -, rfl⟩ := Option.map_eq_some_iff.mp hact
    exact ⟨h.runs, h.buffer⟩
  · obtain ⟨a, -, rfl⟩ := Option.map_eq_some_iff.mp hact
    exact ⟨h.runs, h.buffer⟩
  · obtain ⟨-, hact⟩ := Option.ite_none_right_eq_some.mp hact
    obtain ⟨refresh, -, rfl⟩ := Option.map_eq_some_iff.mp hact
    exact ⟨h.runs, h.buffer⟩
  · obtain ⟨-, hact⟩ := Option.ite_none_right_eq_some.mp hact
    cases hact
    refine ⟨fun c hc => ?_, fun hdropped => ?_⟩
    · rcases List.mem_append.mp hc with hc | hc
      · exact h.runs c hc
      · exact ⟨_, [], by rw [List.mem_singleton.mp hc, Runs.run_nil]⟩
    · simpa [ChatTask.start] using h.buffer hdropped
  · exact h.stepRequest hact

/-- **Every event keeps requests and queue linked.** -/
theorem step {e : AppEvent} (h : s.Linked app) (hstep : app.step s e = some s') :
    s'.Linked app := by
  obtain ⟨-, hstep⟩ := Option.ite_none_right_eq_some.mp hstep
  obtain ⟨m, hact, rfl⟩ := Option.map_eq_some_iff.mp hstep
  have hm := h.act hact
  exact ⟨hm.runs, hm.buffer⟩

end AppState.Linked

theorem linked_of_run {app : App} {redis : Redis} {start : ℚ} {es : List AppEvent} {s : AppState}
    (hrun : Runs.run app.step (App.boot redis start) es = some s) : s.Linked app := by
  have hboot : (App.boot redis start).Linked app := ⟨by simp [App.boot], fun _ => List.Perm.nil⟩
  exact Runs.invariant_along _ (fun _ s => s.Linked app) hboot
    (fun _ _ _ _ h _ hstep => h.step hstep) hrun (Runs.along_true es _)

/-- **Every request of the app is a run of `chat_completions`.** -/
theorem request_isRun {app : App} {redis : Redis} {start : ℚ} {es : List AppEvent} {s : AppState}
    (hrun : Runs.run app.step (App.boot redis start) es = some s) {c : ChatTask}
    (hc : c ∈ s.requests) : c.IsRun app.router :=
  (linked_of_run hrun).runs c hc

/-- **A request that was answered is accounted for in the queue**, unless the queue overflows: its
records are there, one for each of its vendor calls. -/
theorem answered_in_buffer {app : App} {redis : Redis} {start : ℚ} {es : List AppEvent}
    {s : AppState} (hrun : Runs.run app.step (App.boot redis start) es = some s)
    (hdropped : s.accounting.droppedTotal = 0) {c : ChatTask} (hc : c ∈ s.requests)
    {response : ChatCompletionResponse} (hdone : c.pc = .done (.ok response)) :
    Accounted c.calls c.enqueued ∧ ∀ r ∈ c.enqueued, r ∈ s.accounting.buffer := by
  obtain ⟨body, chatEvents, hchat⟩ := request_isRun hrun hc
  have haudit := (chatInv_of_run hchat).audited
  simp only [ChatTask.Audited, hdone] at haudit
  refine ⟨haudit.1, fun r hr => ?_⟩
  exact ((linked_of_run hrun).buffer hdropped).mem_iff.mpr (List.mem_flatMap.mpr ⟨c, hc, hr⟩)

end Librouter
