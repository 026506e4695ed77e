import Mathlib.Data.Option.Basic

/-!
# Labelled transition systems

A system has initial states and a partial step function on labels. Runs are
executed label by label; `Reachable ok` collects the states of the runs whose
every step satisfies the condition `ok` on the state before it and its label.
The invariant and simulation rules below are the only inductions over runs.
-/

namespace OpenStreamGrid

/-- Initial states, and a step that is undefined where a label is disabled. -/
structure TransitionSystem (σ ε : Type*) where
  init : σ → Prop
  step : σ → ε → Option σ

namespace TransitionSystem

variable {σ ε : Type*} (T : TransitionSystem σ ε)

/-- Execute a list of labels; undefined as soon as one step is. -/
def run (s : σ) : List ε → Option σ
  | [] => some s
  | e :: es => (T.step s e).bind fun s' => run s' es

@[simp] theorem run_nil (s : σ) : T.run s [] = some s := rfl

theorem run_cons_eq_some {s s' : σ} {e : ε} {es : List ε} :
    T.run s (e :: es) = some s' ↔ ∃ t, T.step s e = some t ∧ T.run t es = some s' :=
  Option.bind_eq_some_iff

/-- A system without disabled labels runs as a fold. -/
theorem run_eq_foldl {f : σ → ε → σ} (h : ∀ s e, T.step s e = some (f s e)) (es : List ε) :
    ∀ s, T.run s es = some (es.foldl f s) := by
  induction es with
  | nil => intro s; rfl
  | cons e es ih => intro s; rw [run, h, Option.bind_some, ih]; rfl

/-- The states of runs from an initial state whose steps all satisfy `ok`. -/
inductive Reachable (ok : σ → ε → Prop) : σ → Prop where
  | init {s : σ} : T.init s → Reachable ok s
  | step {s s' : σ} {e : ε} :
      Reachable ok s → ok s e → T.step s e = some s' → Reachable ok s'

/-- Every step of the run satisfies the condition. -/
def RunOk (ok : σ → ε → Prop) (s : σ) : List ε → Prop
  | [] => True
  | e :: es => ok s e ∧ ∀ s', T.step s e = some s' → RunOk ok s' es

instance decidableRunOk (ok : σ → ε → Prop) [∀ s e, Decidable (ok s e)] :
    ∀ (s : σ) (es : List ε), Decidable (T.RunOk ok s es)
  | _, [] => isTrue trivial
  | s, e :: es =>
      have : ∀ s', Decidable (T.RunOk ok s' es) := fun s' => decidableRunOk ok s' es
      inferInstanceAs (Decidable (ok s e ∧ ∀ s' ∈ T.step s e, T.RunOk ok s' es))

variable {T}

theorem Reachable.mono {ok ok' : σ → ε → Prop} (h : ∀ s e, ok s e → ok' s e) {s : σ}
    (hr : T.Reachable ok s) : T.Reachable ok' s := by
  induction hr with
  | init h0 => exact .init h0
  | step _ hok hstep ih => exact .step ih (h _ _ hok) hstep

theorem Reachable.append_run {ok : σ → ε → Prop} {es : List ε} : ∀ {s s' : σ},
    T.Reachable ok s → T.RunOk ok s es → T.run s es = some s' → T.Reachable ok s' := by
  induction es with
  | nil =>
      intro s s' hr _ hrun
      rw [run_nil, Option.some.injEq] at hrun
      exact hrun ▸ hr
  | cons e es ih =>
      intro s s' hr hok hrun
      obtain ⟨t, hstep, hrest⟩ := (run_cons_eq_some T).mp hrun
      exact ih (.step hr hok.1 hstep) (hok.2 t hstep) hrest

theorem runOk_of_forall {ok : σ → ε → Prop} (h : ∀ s e, ok s e) (es : List ε) :
    ∀ s : σ, T.RunOk ok s es := by
  induction es with
  | nil => intro s; trivial
  | cons e es ih => intro s; exact ⟨h s e, fun s' _ => ih s'⟩

theorem runOk_append {ok : σ → ε → Prop} {es es' : List ε} : ∀ {s : σ},
    T.RunOk ok s (es ++ es') ↔
      T.RunOk ok s es ∧ ∀ s', T.run s es = some s' → T.RunOk ok s' es' := by
  induction es with
  | nil =>
      intro s
      constructor
      · intro h
        refine ⟨trivial, fun s' hrun => ?_⟩
        rwa [← Option.some.inj hrun]
      · exact fun h => h.2 s rfl
  | cons e es ih =>
      intro s
      constructor
      · rintro ⟨hok, hrest⟩
        refine ⟨⟨hok, fun t hstep => (ih.mp (hrest t hstep)).1⟩, fun s' hrun => ?_⟩
        obtain ⟨t, hstep, hrun'⟩ := (run_cons_eq_some T).mp hrun
        exact (ih.mp (hrest t hstep)).2 s' hrun'
      · rintro ⟨⟨hok, hrest⟩, hlater⟩
        refine ⟨hok, fun t hstep => ih.mpr ⟨hrest t hstep, fun s' hrun => ?_⟩⟩
        exact hlater s' ((run_cons_eq_some T).mpr ⟨t, hstep, hrun⟩)

/-- The end of an executed run is reachable when nothing is asked of its steps. -/
theorem reachable_of_run {s s' : σ} {es : List ε} (h0 : T.init s)
    (hrun : T.run s es = some s') : T.Reachable (fun _ _ => True) s' :=
  (Reachable.init h0).append_run (runOk_of_forall (fun _ _ => trivial) es _) hrun

/-- What holds initially and is kept by every step satisfying `ok` holds of
every state such steps reach. -/
theorem Reachable.invariant {ok : σ → ε → Prop} {s : σ} (hr : T.Reachable ok s)
    (Inv : σ → Prop) (hinit : ∀ s, T.init s → Inv s)
    (hstep : ∀ s e s', Inv s → ok s e → T.step s e = some s' → Inv s') : Inv s := by
  induction hr with
  | init h0 => exact hinit _ h0
  | step _ hok hs ih => exact hstep _ _ _ ih hok hs

/-- Where an invariant gives a property and a step that breaks the condition breaks the property at
once, the property holds all along a run exactly if every step meets the condition. -/
theorem forall_prefix_iff_runOk {ok : σ → ε → Prop} {Inv P : σ → Prop}
    (hgives : ∀ s, Inv s → P s)
    (hkeeps : ∀ s e s', Inv s → ok s e → T.step s e = some s' → Inv s')
    (hbreaks : ∀ s e s', Inv s → ¬ok s e → T.step s e = some s' → ¬P s') {es : List ε} :
    ∀ {s s' : σ}, Inv s → T.run s es = some s' →
      ((∀ earlier t, earlier <+: es → T.run s earlier = some t → P t) ↔ T.RunOk ok s es) := by
  induction es with
  | nil =>
      intro s s' hinv _
      refine ⟨fun _ => trivial, fun _ earlier t hprefix hrun => ?_⟩
      rw [List.prefix_nil] at hprefix
      subst hprefix
      exact Option.some.inj hrun ▸ hgives s hinv
  | cons e es ih =>
      intro s s' hinv hrun
      obtain ⟨t, hstep, hrest⟩ := (run_cons_eq_some T).mp hrun
      have hfirst : T.run s [e] = some t := (run_cons_eq_some T).mpr ⟨t, hstep, rfl⟩
      constructor
      · intro hall
        have hok : ok s e := by
          by_contra hbad
          exact hbreaks s e t hinv hbad hstep (hall [e] t ⟨es, rfl⟩ hfirst)
        refine ⟨hok, fun t' hstep' => ?_⟩
        obtain rfl := Option.some.inj (hstep.symm.trans hstep')
        apply (ih (hkeeps s e t hinv hok hstep) hrest).mp
        intro earlier u hprefix hrun'
        refine hall (e :: earlier) u (List.cons_prefix_cons.mpr ⟨rfl, hprefix⟩) ?_
        exact (run_cons_eq_some T).mpr ⟨t, hstep, hrun'⟩
      · rintro ⟨hok, hoks⟩ earlier u hprefix hrun'
        rcases List.prefix_cons_iff.mp hprefix with rfl | ⟨tail, rfl, htail⟩
        · exact Option.some.inj hrun' ▸ hgives s hinv
        · obtain ⟨t', hstep', hrun'⟩ := (run_cons_eq_some T).mp hrun'
          obtain rfl := Option.some.inj (hstep.symm.trans hstep')
          exact (ih (hkeeps s e t hinv hok hstep) hrest).mpr (hoks t hstep) tail u htail hrun'

/-- A run keeps one invariant while its steps meet the condition. Where the first step that does not
leads to another invariant that every step keeps, the end of the run tells which it was. -/
theorem run_dichotomy {ok : σ → ε → Prop} {Good Bad : σ → Prop}
    (hkeeps : ∀ s e s', Good s → ok s e → T.step s e = some s' → Good s')
    (hbreaks : ∀ s e s', Good s → ¬ok s e → T.step s e = some s' → Bad s')
    (hstays : ∀ s e s', Bad s → T.step s e = some s' → Bad s') {es : List ε} :
    ∀ {s s' : σ}, Good s → T.run s es = some s' →
      (T.RunOk ok s es ∧ Good s') ∨ (¬T.RunOk ok s es ∧ Bad s') := by
  have hbad : ∀ {es : List ε} {s s' : σ}, Bad s → T.run s es = some s' → Bad s' := by
    intro es
    induction es with
    | nil =>
        intro s s' h hrun
        exact Option.some.inj hrun ▸ h
    | cons e es ih =>
        intro s s' h hrun
        obtain ⟨t, hstep, hrest⟩ := (run_cons_eq_some T).mp hrun
        exact ih (hstays s e t h hstep) hrest
  induction es with
  | nil =>
      intro s s' h hrun
      exact Or.inl ⟨trivial, Option.some.inj hrun ▸ h⟩
  | cons e es ih =>
      intro s s' h hrun
      obtain ⟨t, hstep, hrest⟩ := (run_cons_eq_some T).mp hrun
      have hthen : T.RunOk ok s (e :: es) ↔ ok s e ∧ T.RunOk ok t es := by
        constructor
        · exact fun hok => ⟨hok.1, hok.2 t hstep⟩
        · rintro ⟨hok, hrest⟩
          refine ⟨hok, fun t' hstep' => ?_⟩
          obtain rfl := Option.some.inj (hstep.symm.trans hstep')
          exact hrest
      rw [hthen]
      by_cases hok : ok s e
      · rcases ih (hkeeps s e t h hok hstep) hrest with ⟨hrun', hgood⟩ | ⟨hrun', hbad'⟩
        · exact Or.inl ⟨⟨hok, hrun'⟩, hgood⟩
        · exact Or.inr ⟨fun hboth => hrun' hboth.2, hbad'⟩
      · exact Or.inr ⟨fun hboth => hok hboth.1, hbad (hbreaks s e t h hok hstep) hrest⟩

end TransitionSystem

end OpenStreamGrid
