/-
# Operations that take effect at one instant

Parties call operations on a shared object.  Each call takes several steps, but at one of them the
whole operation is executed; the journal lists the executions in order.  `Linear` says that this is
all there is: the state of the object and every answer are those of the journal replayed one
operation after another, no call is executed twice, and one that was answered has been executed
between its beginning and its end.

A call begins (`Linear.begin`), is executed (`Linear.execute`), or is given up (`Linear.giveUp`);
what else it does in between does not concern the object.
-/
import Mathlib

namespace Journal

variable {σ ι α ρ : Type*}

/-! ## 1. Replay -/

/-- An execution: for which party, on what from the environment, of which operation, with which
answer. -/
structure Entry (ι α ρ : Type*) where
  party : ℕ
  input : ι
  op : α
  reply : ρ

/-- The journal leads from one state to another, and its answers are those of the object. -/
def Replays (exec : σ → ι → α → σ × ρ) : σ → List (Entry ι α ρ) → σ → Prop
  | s, [], t => s = t
  | s, e :: es, t => e.reply = (exec s e.input e.op).2 ∧ Replays exec (exec s e.input e.op).1 es t

theorem Replays.concat {exec : σ → ι → α → σ × ρ} {t : σ} {party : ℕ} {input : ι} {op : α} :
    ∀ {s : σ} {es : List (Entry ι α ρ)}, Replays exec s es t →
      Replays exec s (es ++ [⟨party, input, op, (exec t input op).2⟩]) (exec t input op).1
  | s, [], h => by
    obtain rfl : s = t := h
    exact ⟨rfl, rfl⟩
  | _, _ :: _, h => ⟨h.1, h.2.concat⟩

/-! ## 2. Parties -/

/-- How a call has ended, if it has; `ended` is the length of the journal then. -/
inductive Outcome (ρ : Type*)
  | pending
  | answered (reply : ρ) (ended : ℕ)
  | failed

/-- A call; `begun` is the length of the journal when it began. -/
structure Party (α ρ : Type*) where
  op : α
  begun : ℕ
  outcome : Outcome ρ

/-- **The calls are as if each was executed at one instant**, or not at all. -/
structure Linear (exec : σ → ι → α → σ × ρ) (start : σ) (parties : List (Party α ρ))
    (journal : List (Entry ι α ρ)) (now : σ) : Prop where
  replays : Replays exec start journal now
  /-- an execution is of the operation of a call that has begun -/
  known : ∀ (k : ℕ) (e : Entry ι α ρ), journal[k]? = some e →
    ∃ p, parties[e.party]? = some p ∧ e.op = p.op ∧ p.begun ≤ k
  /-- a call is executed once at most -/
  once : ∀ (k k' : ℕ) (e e' : Entry ι α ρ), journal[k]? = some e → journal[k']? = some e' →
    e.party = e'.party → k = k'
  /-- one that is pending has not been executed -/
  pending : ∀ (i : ℕ) (p : Party α ρ), parties[i]? = some p → p.outcome = .pending →
    ∀ e ∈ journal, e.party ≠ i
  /-- one that was answered has been, before its end, with this answer -/
  answered : ∀ (i : ℕ) (p : Party α ρ) (reply : ρ) (ended : ℕ), parties[i]? = some p →
    p.outcome = .answered reply ended →
      ∃ (k : ℕ) (e : Entry ι α ρ), journal[k]? = some e ∧ e.party = i ∧ e.reply = reply ∧ k < ended
  /-- nothing begins or ends in the future -/
  begun_le : ∀ (i : ℕ) (p : Party α ρ), parties[i]? = some p → p.begun ≤ journal.length

/-- Of a list with one more element, an element is one of before or the new one. -/
theorem getElem?_concat_cases {β : Type*} {l : List β} {x y : β} {k : ℕ}
    (h : (l ++ [x])[k]? = some y) : l[k]? = some y ∨ k = l.length ∧ y = x := by
  rcases lt_or_ge k l.length with hlt | hge
  · rw [List.getElem?_append_left hlt] at h
    exact Or.inl h
  · rw [List.getElem?_append_right hge, List.getElem?_singleton] at h
    obtain ⟨hzero, hy⟩ := Option.ite_none_right_eq_some.mp h
    exact Or.inr ⟨by omega, (Option.some.inj hy).symm⟩

/-- Of a list with one element exchanged, an element is that one or was there before. -/
theorem getElem?_set_cases {β : Type*} {l : List β} {i j : ℕ} {x y z : β} (hx : l[i]? = some x)
    (h : (l.set i y)[j]? = some z) : i = j ∧ z = y ∨ i ≠ j ∧ l[j]? = some z := by
  by_cases hij : i = j
  · subst hij
    rw [List.getElem?_set_self (List.getElem?_eq_some_iff.mp hx).1] at h
    exact Or.inl ⟨rfl, (Option.some.inj h).symm⟩
  · rw [List.getElem?_set_ne hij] at h
    exact Or.inr ⟨hij, h⟩

namespace Linear

variable {exec : σ → ι → α → σ × ρ} {start now : σ} {parties : List (Party α ρ)}
  {journal : List (Entry ι α ρ)} {i : ℕ} {p q : Party α ρ}

theorem nil (exec : σ → ι → α → σ × ρ) (start : σ) : Linear exec start [] [] start :=
  ⟨rfl, by simp, by simp, by simp, by simp, by simp⟩

/-- A call begins. -/
theorem begin (h : Linear exec start parties journal now) (op : α) :
    Linear exec start (parties ++ [⟨op, journal.length, .pending⟩]) journal now := by
  refine ⟨h.replays, fun k e he => ?_, h.once, fun j q hq hpending => ?_,
    fun j q reply ended hq houtcome => ?_, fun j q hq => ?_⟩
  · obtain ⟨p, hp, hop, hbegun⟩ := h.known k e he
    exact ⟨p, by rw [List.getElem?_append_left (List.getElem?_eq_some_iff.mp hp).1, hp], hop,
      hbegun⟩
  · rcases getElem?_concat_cases hq with hold | ⟨rfl, rfl⟩
    · exact h.pending j q hold hpending
    · intro e he hparty
      obtain ⟨k, hk⟩ := List.getElem?_of_mem he
      obtain ⟨p, hp, -⟩ := h.known k e hk
      exact (List.getElem?_eq_some_iff.mp hp).1.ne hparty
  · rcases getElem?_concat_cases hq with hold | ⟨rfl, rfl⟩
    · exact h.answered j q reply ended hold houtcome
    · cases houtcome
  · rcases getElem?_concat_cases hq with hold | ⟨rfl, rfl⟩
    · exact h.begun_le j q hold
    · exact le_rfl

/-- A call moves, without executing anything. -/
theorem stay (h : Linear exec start parties journal now) (hp : parties[i]? = some p) :
    Linear exec start (parties.set i p) journal now := by
  obtain ⟨hi, rfl⟩ := List.getElem?_eq_some_iff.mp hp
  rwa [List.set_getElem_self]

/-- What is known of a call does not change when one moves. -/
theorem exists_set (hp : parties[i]? = some p) (outcome : Outcome ρ) {j k : ℕ} {op : α}
    (h : ∃ x, parties[j]? = some x ∧ op = x.op ∧ x.begun ≤ k) :
    ∃ x, (parties.set i { p with outcome := outcome })[j]? = some x ∧ op = x.op ∧ x.begun ≤ k := by
  obtain ⟨x, hx, hxop, hxbegun⟩ := h
  by_cases hij : i = j
  · subst hij
    obtain rfl := Option.some.inj (hp.symm.trans hx)
    exact ⟨_, List.getElem?_set_self (List.getElem?_eq_some_iff.mp hp).1, hxop, hxbegun⟩
  · exact ⟨x, by rw [List.getElem?_set_ne hij, hx], hxop, hxbegun⟩

/-- A call is given up. -/
theorem giveUp (h : Linear exec start parties journal now) (hp : parties[i]? = some p) :
    Linear exec start (parties.set i { p with outcome := .failed }) journal now := by
  refine ⟨h.replays, fun k e he => exists_set hp .failed (h.known k e he), h.once,
    fun j q hq hpending => ?_, fun j q reply ended hq houtcome => ?_, fun j q hq => ?_⟩
  · rcases getElem?_set_cases hp hq with ⟨rfl, rfl⟩ | ⟨-, hold⟩
    · cases hpending
    · exact h.pending j q hold hpending
  · rcases getElem?_set_cases hp hq with ⟨rfl, rfl⟩ | ⟨-, hold⟩
    · cases houtcome
    · exact h.answered j q reply ended hold houtcome
  · rcases getElem?_set_cases hp hq with ⟨rfl, rfl⟩ | ⟨-, hold⟩
    · exact h.begun_le i p hp
    · exact h.begun_le j q hold

/-- **A call is executed**; the answer reaches it, or it is lost. -/
theorem execute (h : Linear exec start parties journal now) (hp : parties[i]? = some p)
    (hpending : p.outcome = .pending) (input : ι) {outcome : Outcome ρ}
    (houtcome : outcome = .answered (exec now input p.op).2 (journal.length + 1) ∨
      outcome = .failed) :
    Linear exec start (parties.set i { p with outcome := outcome })
      (journal ++ [⟨i, input, p.op, (exec now input p.op).2⟩]) (exec now input p.op).1 := by
  set new : Entry ι α ρ := ⟨i, input, p.op, (exec now input p.op).2⟩ with hnew
  have hfirst : ∀ e ∈ journal, e.party ≠ i := h.pending i p hp hpending
  refine ⟨h.replays.concat, fun k e he => ?_, fun k k' e e' he he' hparty => ?_,
    fun j q hq hpend => ?_, fun j q reply ended hq hans => ?_, fun j q hq => ?_⟩
  · refine exists_set hp outcome ?_
    rcases getElem?_concat_cases he with hold | ⟨rfl, rfl⟩
    · exact h.known k e hold
    · exact ⟨p, hp, rfl, h.begun_le i p hp⟩
  · rcases getElem?_concat_cases he with hold | ⟨rfl, rfl⟩ <;>
      rcases getElem?_concat_cases he' with hold' | ⟨rfl, rfl⟩
    · exact h.once k k' e e' hold hold' hparty
    · exact absurd hparty (hfirst e (List.mem_of_getElem? hold))
    · exact absurd hparty.symm (hfirst e' (List.mem_of_getElem? hold'))
    · rfl
  · rcases getElem?_set_cases hp hq with ⟨rfl, rfl⟩ | ⟨hij, hold⟩
    · rcases houtcome with rfl | rfl <;> cases hpend
    · intro e he
      rcases List.mem_append.mp he with he | he
      · exact h.pending j q hold hpend e he
      · rw [List.mem_singleton.mp he]
        exact hij
  · rcases getElem?_set_cases hp hq with ⟨rfl, rfl⟩ | ⟨-, hold⟩
    · rcases houtcome with rfl | rfl
      · cases hans
        exact ⟨journal.length, new, by simp, rfl, rfl, Nat.lt_succ_self _⟩
      · cases hans
    · obtain ⟨k, e, he, hparty, hreply, hk⟩ := h.answered j q reply ended hold hans
      exact ⟨k, e, by rw [List.getElem?_append_left (List.getElem?_eq_some_iff.mp he).1, he],
        hparty, hreply, hk⟩
  · rw [List.length_append]
    rcases getElem?_set_cases hp hq with ⟨rfl, rfl⟩ | ⟨-, hold⟩
    · exact (h.begun_le i p hp).trans (Nat.le_add_right _ _)
    · exact (h.begun_le j q hold).trans (Nat.le_add_right _ _)

/-- **The order of the journal is one of real time**: a call that had ended when another began was
executed before it. -/
theorem ordered (h : Linear exec start parties journal now) {j ended : ℕ} {reply : ρ}
    (hp : parties[i]? = some p) (houtcome : p.outcome = .answered reply ended)
    (hq : parties[j]? = some q) (hbefore : ended ≤ q.begun) {k : ℕ} {e : Entry ι α ρ}
    (he : journal[k]? = some e) (hparty : e.party = j) :
    ∃ k' e', journal[k']? = some e' ∧ e'.party = i ∧ e'.reply = reply ∧ k' < k := by
  obtain ⟨k', e', he', hparty', hreply, hk'⟩ := h.answered i p reply ended hp houtcome
  obtain ⟨q', hq', -, hbegun⟩ := h.known k e he
  rw [hparty, hq] at hq'
  obtain rfl := Option.some.inj hq'
  exact ⟨k', e', he', hparty', hreply, by omega⟩

end Linear

end Journal
