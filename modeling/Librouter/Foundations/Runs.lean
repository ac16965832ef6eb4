/-
# Runs of a partial step function

A system is a type of states, a type of events and a partial step: `none` says that the event
cannot happen in the state.  Everything nondeterministic (who moves, what the environment
answers) is in the event, so a run is a list of events.

Two rules carry invariants over runs.  `invariant` is for every run, `invariant_along` for the
runs whose steps all meet a condition.  Both let the invariant mention the events so far, so that
a fact about the history (how often, how recently) can be proved of the state.
-/
import Mathlib

namespace Runs

variable {σ ε : Type*} {step : σ → ε → Option σ} {s t : σ} {es : List ε}

/-- The state after the events, if they can happen one after another. -/
def run (step : σ → ε → Option σ) (s : σ) : List ε → Option σ
  | [] => some s
  | e :: es => (step s e).bind fun s' => run step s' es

@[simp] theorem run_nil (s : σ) : run step s [] = some s := rfl

theorem run_cons_iff {e : ε} :
    run step s (e :: es) = some t ↔ ∃ m, step s e = some m ∧ run step m es = some t := by
  simp [run, Option.bind_eq_some_iff]

theorem run_append_iff {es' : List ε} :
    run step s (es ++ es') = some t ↔ ∃ m, run step s es = some m ∧ run step m es' = some t := by
  induction es generalizing s with
  | nil => simp
  | cons e es ih =>
    simp only [List.cons_append, run_cons_iff, ih]
    constructor
    · rintro ⟨m, hm, m', hm', ht⟩
      exact ⟨m', ⟨m, hm, hm'⟩, ht⟩
    · rintro ⟨m', ⟨m, hm, hm'⟩, ht⟩
      exact ⟨m, hm, m', hm', ht⟩

theorem run_concat_iff {e : ε} :
    run step s (es ++ [e]) = some t ↔ ∃ m, run step s es = some m ∧ step m e = some t := by
  simp [run_append_iff, run_cons_iff]

/-- Every run is the end of a run from where its beginning led. -/
theorem exists_run_of_prefix {p : List ε} (h : run step s es = some t) (hp : p <+: es) :
    ∃ m, run step s p = some m := by
  obtain ⟨q, rfl⟩ := hp
  obtain ⟨m, hm, -⟩ := run_append_iff.mp h
  exact ⟨m, hm⟩

/-! ## Runs with fewer events -/

/-- **The simulation rule for events that are left out.**  What is related stays so if both states
move, or only the first of them with an event that is not kept; so a run has a related run of the
kept events alone. -/
theorem run_filter {keep : ε → Bool} {P : ε → Prop} {R : σ → σ → Prop}
    (hkeep : ∀ s s' e t, R s s' → P e → keep e = true → step s e = some t →
      ∃ t', step s' e = some t' ∧ R t t')
    (hdrop : ∀ s s' e t, R s s' → P e → keep e = false → step s e = some t → R t s')
    {s' : σ} (hs : R s s') (hP : ∀ e ∈ es, P e) (h : run step s es = some t) :
    ∃ t', run step s' (es.filter keep) = some t' ∧ R t t' := by
  induction es generalizing s s' with
  | nil =>
    obtain rfl : s = t := by simpa using h
    exact ⟨s', rfl, hs⟩
  | cons e es ih =>
    obtain ⟨m, hm, h⟩ := run_cons_iff.mp h
    have hPe : P e := hP e List.mem_cons_self
    have hrest : ∀ e ∈ es, P e := fun e he => hP e (List.mem_cons_of_mem _ he)
    cases hk : keep e with
    | true =>
      obtain ⟨m', hm', hR⟩ := hkeep s s' e m hs hPe hk hm
      obtain ⟨t', ht', hRt⟩ := ih hR hrest h
      rw [List.filter_cons_of_pos hk]
      exact ⟨t', run_cons_iff.mpr ⟨m', hm', ht'⟩, hRt⟩
    | false =>
      rw [List.filter_cons_of_neg (by rw [hk]; exact Bool.false_ne_true)]
      exact ih (hdrop s s' e m hs hPe hk hm) hrest h

/-! ## Components of the state -/

section Components

variable {σ' ε' : Type*} {step' : σ' → ε' → Option σ'} {proj : σ → σ'} {f : ε → Option ε'}

/-- **The projection rule.**  A component that takes a step of its own with some of the events, and
stays as it is with the others, runs through those. -/
theorem run_filterMap
    (hmove : ∀ s e t e', f e = some e' → step s e = some t → step' (proj s) e' = some (proj t))
    (hstay : ∀ s e t, f e = none → step s e = some t → proj t = proj s)
    (h : run step s es = some t) : run step' (proj s) (es.filterMap f) = some (proj t) := by
  induction es generalizing s with
  | nil =>
    obtain rfl : s = t := by simpa using h
    rfl
  | cons e es ih =>
    obtain ⟨m, hm, h⟩ := run_cons_iff.mp h
    cases hf : f e with
    | none =>
      rw [List.filterMap_cons_none hf, ← hstay s e m hf hm]
      exact ih h
    | some e' =>
      rw [List.filterMap_cons_some hf]
      exact run_cons_iff.mpr ⟨proj m, hmove s e m e' hf hm, ih h⟩

/-- What the component has come through is what the whole has come through. -/
theorem exists_run_of_prefix_filterMap
    (hmove : ∀ s e t e', f e = some e' → step s e = some t → step' (proj s) e' = some (proj t))
    (hstay : ∀ s e t, f e = none → step s e = some t → proj t = proj s)
    (h : run step s es = some t) {p : List ε'} (hp : p <+: es.filterMap f) {m' : σ'}
    (hm' : run step' (proj s) p = some m') :
    ∃ q m, q <+: es ∧ run step s q = some m ∧ proj m = m' := by
  obtain ⟨q, hq, rfl⟩ := List.prefix_filterMap_iff.mp hp
  obtain ⟨m, hm⟩ := exists_run_of_prefix h hq
  exact ⟨q, m, hq, hm, Option.some.inj ((run_filterMap hmove hstay hm).symm.trans hm')⟩

end Components

/-! ## Notes -/

/-- What is noted at the steps of a run, in order. -/
def notes {α : Type*} (step : σ → ε → Option σ) (note : σ → ε → List α) (s : σ) : List ε → List α
  | [] => []
  | e :: es => note s e ++ ((step s e).map fun s' => notes step note s' es).getD []

theorem notes_concat {α : Type*} {note : σ → ε → List α} {e : ε} (h : run step s es = some t) :
    notes step note s (es ++ [e]) = notes step note s es ++ note t e := by
  induction es generalizing s with
  | nil =>
    obtain rfl : s = t := by simpa using h
    cases hstep : step s e <;> simp [notes, hstep]
  | cons e' es ih =>
    obtain ⟨m, hm, hrest⟩ := run_cons_iff.mp h
    simp [notes, hm, ih hrest]

theorem notes_append {α : Type*} {note : σ → ε → List α} {es' : List ε}
    (h : run step s es = some t) :
    notes step note s (es ++ es') = notes step note s es ++ notes step note t es' := by
  induction es generalizing s with
  | nil =>
    obtain rfl : s = t := by simpa using h
    simp [notes]
  | cons e' es ih =>
    obtain ⟨m, hm, hrest⟩ := run_cons_iff.mp h
    simp [notes, hm, ih hrest]

/-! ## The invariant rules -/

/-- Every step of the run meets `P`. -/
def Along (step : σ → ε → Option σ) (P : σ → ε → Prop) (s : σ) : List ε → Prop
  | [] => True
  | e :: es => P s e ∧ ∀ s', step s e = some s' → Along step P s' es

instance decidableAlong {P : σ → ε → Prop} [∀ s e, Decidable (P s e)] :
    ∀ (s : σ) (es : List ε), Decidable (Along step P s es)
  | _, [] => isTrue trivial
  | s, e :: es =>
    match h : step s e with
    | none => decidable_of_iff (P s e) ⟨fun hP => ⟨hP, fun s' hs => by rw [h] at hs; cases hs⟩,
        And.left⟩
    | some m =>
      have := decidableAlong (P := P) m es
      decidable_of_iff (P s e ∧ Along step P m es)
        ⟨fun hP => ⟨hP.1, fun s' hs => by rw [h] at hs; cases hs; exact hP.2⟩,
          fun hP => ⟨hP.1, hP.2 m h⟩⟩

/-- The rule below, for a run that goes on from a history. -/
theorem invariant_along_from (P : σ → ε → Prop) (Inv : List ε → σ → Prop)
    (hstep : ∀ es s e s', Inv es s → P s e → step s e = some s' → Inv (es ++ [e]) s')
    (h : run step s es = some t) (hP : Along step P s es) {past : List ε} (h0 : Inv past s) :
    Inv (past ++ es) t := by
  induction es generalizing s past with
  | nil =>
    obtain rfl : s = t := by simpa using h
    simpa using h0
  | cons e es ih =>
    obtain ⟨m, hm, h⟩ := run_cons_iff.mp h
    have hrest := ih h (hP.2 m hm) (hstep past s e m h0 hP.1 hm)
    rwa [List.append_assoc, List.singleton_append] at hrest

/-- **The invariant rule, under a condition on the steps.**  What holds at the start, and is kept
by every step that meets `P`, holds after every run whose steps all meet `P`. -/
theorem invariant_along (P : σ → ε → Prop) (Inv : List ε → σ → Prop) (h0 : Inv [] s)
    (hstep : ∀ es s e s', Inv es s → P s e → step s e = some s' → Inv (es ++ [e]) s')
    (h : run step s es = some t) (hP : Along step P s es) : Inv es t := by
  have hrun := invariant_along_from P Inv hstep h hP h0
  rwa [List.nil_append] at hrun

/-- A condition on the events alone. -/
theorem along_of_forall {P : ε → Prop} :
    ∀ (es : List ε) (s : σ), (∀ e ∈ es, P e) → Along step (fun _ e => P e) s es
  | [], _, _ => trivial
  | e :: es, _, h => ⟨h e List.mem_cons_self, fun s' _ =>
      along_of_forall es s' fun e' he' => h e' (List.mem_cons_of_mem e he')⟩

theorem Along.imp {P Q : σ → ε → Prop} (hPQ : ∀ s e, P s e → Q s e) :
    ∀ {es : List ε} {s : σ}, Along step P s es → Along step Q s es
  | [], _, _ => trivial
  | _ :: _, _, h => ⟨hPQ _ _ h.1, fun s' hs' => (h.2 s' hs').imp hPQ⟩

/-- A condition on the steps of a run is one on the steps of its parts. -/
theorem Along.append {P : σ → ε → Prop} {es' : List ε} {m : σ} (h : Along step P s (es ++ es'))
    (hrun : run step s es = some m) : Along step P s es ∧ Along step P m es' := by
  induction es generalizing s with
  | nil =>
    obtain rfl : s = m := by simpa using hrun
    exact ⟨trivial, h⟩
  | cons e es ih =>
    obtain ⟨m', hm', hrun⟩ := run_cons_iff.mp hrun
    refine ⟨⟨h.1, fun s' hs' => ?_⟩, (ih (h.2 m' hm') hrun).2⟩
    obtain rfl := Option.some.inj (hm'.symm.trans hs')
    exact (ih (h.2 m' hm') hrun).1

/-- The steps of a run are those after its beginnings. -/
theorem along_iff {P : σ → ε → Prop} : Along step P s es ↔
    ∀ before e after, es = before ++ e :: after → ∀ m, run step s before = some m → P m e := by
  constructor
  · rintro h before e after rfl m hm
    exact (h.append hm).2.1
  · intro h
    induction es generalizing s with
    | nil => trivial
    | cons e es ih =>
      refine ⟨h [] e es rfl s rfl, fun s' hs' => ih fun before e' after hes m hm => ?_⟩
      exact h (e :: before) e' after (by rw [hes, List.cons_append]) m
        (run_cons_iff.mpr ⟨s', hs', hm⟩)

theorem along_true : ∀ (es : List ε) (s : σ), Along step (fun _ _ => True) s es
  | [], _ => trivial
  | _ :: es, _ => ⟨trivial, fun s' _ => along_true es s'⟩

/-- **The invariant rule.** -/
theorem invariant (Inv : List ε → σ → Prop) (h0 : Inv [] s)
    (hstep : ∀ es s e s', Inv es s → step s e = some s' → Inv (es ++ [e]) s')
    (h : run step s es = some t) : Inv es t :=
  invariant_along _ Inv h0 (fun es s e s' hi _ hs => hstep es s e s' hi hs) h (along_true es s)

end Runs
