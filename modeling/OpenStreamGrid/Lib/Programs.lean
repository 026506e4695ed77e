import Mathlib.Data.List.Basic

/-!
# Programs that call their environment

A program makes a call, and goes on with whatever it is answered. In a run the
answers are free: between two calls others may change what the calls are about.
What holds of every run is shown along the program, call by call.
-/

namespace OpenStreamGrid

/-- A program over calls `ι`, each with the type of its answer. -/
inductive Program (ι : Type) (ρ : ι → Type) (α : Type) where
  | done (result : α)
  | call (op : ι) (next : ρ op → Program ι ρ α)

namespace Program

variable {ι : Type} {ρ : ι → Type} {α β σ : Type}

/-- A call and its answer. -/
abbrev Exchange (ι : Type) (ρ : ι → Type) : Type := (op : ι) × ρ op

def bind : Program ι ρ α → (α → Program ι ρ β) → Program ι ρ β
  | done result, next => next result
  | call op answered, next => call op fun answer => (answered answer).bind next

def result? : Program ι ρ α → Option α
  | done result => some result
  | call _ _ => none

def call? : Program ι ρ α → Option ι
  | .done _ => none
  | .call op _ => some op

theorem eq_done_of_result? {p : Program ι ρ α} {result : α} (h : p.result? = some result) :
    p = done result := by
  cases p with
  | done result' => exact congrArg done (Option.some.inj h)
  | call op next => cases h

/-- What is left of a program after calls with any answers. -/
inductive Leads : Program ι ρ α → List (Exchange ι ρ) → Program ι ρ α → Prop where
  | refl (p : Program ι ρ α) : Leads p [] p
  | call {op : ι} {next : ρ op → Program ι ρ α} {answer : ρ op}
      {trace : List (Exchange ι ρ)} {p : Program ι ρ α} :
      Leads (next answer) trace p → Leads (call op next) (⟨op, answer⟩ :: trace) p

/-- A run to the end. -/
abbrev Runs (p : Program ι ρ α) (trace : List (Exchange ι ρ)) (result : α) : Prop :=
  Leads p trace (done result)

theorem Leads.trans {p p' p'' : Program ι ρ α} {trace later : List (Exchange ι ρ)}
    (h : Leads p trace p') (h' : Leads p' later p'') : Leads p (trace ++ later) p'' := by
  induction h with
  | refl p => exact h'
  | call _ ih => exact .call (ih h')

/-- Run with the answers that an environment gives, which changes as it answers. -/
def exec (answer : (op : ι) → σ → ρ op × σ) : Program ι ρ α → σ → α × σ
  | done result, s => (result, s)
  | call op next, s => exec answer (next (answer op s).1) (answer op s).2

/-- As long as the answers are as assumed, every call and the result fit what was exchanged. -/
def Ensures (A : Exchange ι ρ → Prop) (P : List (Exchange ι ρ) → ι → Prop)
    (Q : List (Exchange ι ρ) → α → Prop) : List (Exchange ι ρ) → Program ι ρ α → Prop
  | trace, done result => Q trace result
  | trace, call op next => P trace op ∧
      ∀ answer, A ⟨op, answer⟩ → Ensures A P Q (trace ++ [⟨op, answer⟩]) (next answer)

variable {A : Exchange ι ρ → Prop} {P : List (Exchange ι ρ) → ι → Prop}
variable {Q Q' : List (Exchange ι ρ) → α → Prop}

theorem ensures_bind {R : List (Exchange ι ρ) → β → Prop} {next : α → Program ι ρ β}
    {p : Program ι ρ α} : ∀ {trace : List (Exchange ι ρ)},
    Ensures A P R trace (p.bind next) ↔
      Ensures A P (fun trace result => Ensures A P R trace (next result)) trace p := by
  induction p with
  | done result => exact Iff.rfl
  | call op answered ih =>
      intro trace
      constructor
      · exact fun h => ⟨h.1, fun answer hanswer => (ih answer).mp (h.2 answer hanswer)⟩
      · exact fun h => ⟨h.1, fun answer hanswer => (ih answer).mpr (h.2 answer hanswer)⟩

/-- The rule of consequence. -/
theorem Ensures.mono {p : Program ι ρ α} : ∀ {trace : List (Exchange ι ρ)},
    Ensures A P Q trace p → (∀ trace result, Q trace result → Q' trace result) →
      Ensures A P Q' trace p := by
  induction p with
  | done result => exact fun h himp => himp _ result h
  | call op answered ih =>
      exact fun h himp => ⟨h.1, fun answer hanswer => ih answer (h.2 answer hanswer) himp⟩

/-- What a program ensures holds of each of its calls, and what is left ensures the rest. -/
theorem Ensures.of_leads {p p' : Program ι ρ α} {later : List (Exchange ι ρ)}
    (hleads : Leads p later p') (hA : ∀ exchange ∈ later, A exchange) :
    ∀ {trace : List (Exchange ι ρ)}, Ensures A P Q trace p →
      (∀ before exchange after, later = before ++ exchange :: after →
        P (trace ++ before) exchange.1) ∧ Ensures A P Q (trace ++ later) p' := by
  induction hleads with
  | refl p =>
      intro trace h
      refine ⟨fun before exchange after hsplit => ?_, ?_⟩
      · exact absurd hsplit.symm (List.append_ne_nil_of_right_ne_nil _ (List.cons_ne_nil _ _))
      · rw [List.append_nil]
        exact h
  | call _ ih =>
      intro trace h
      obtain ⟨hcalls, hrest⟩ := ih (fun exchange hmem => hA exchange (List.mem_cons_of_mem _ hmem))
        (h.2 _ (hA _ List.mem_cons_self))
      rw [List.append_assoc] at hrest
      refine ⟨fun before exchange after hsplit => ?_, hrest⟩
      cases before with
      | nil =>
          rw [List.nil_append, List.cons.injEq] at hsplit
          rw [List.append_nil, ← hsplit.1]
          exact h.1
      | cons first before =>
          rw [List.cons_append, List.cons.injEq] at hsplit
          have hcall := hcalls before exchange after hsplit.2
          rw [List.append_assoc, hsplit.1] at hcall
          exact hcall

/-- An executed program has a run with the result it gives. -/
theorem exists_runs_exec (answer : (op : ι) → σ → ρ op × σ) (p : Program ι ρ α) :
    ∀ s, ∃ trace, Runs p trace (p.exec answer s).1 := by
  induction p with
  | done result => exact fun s => ⟨[], .refl _⟩
  | call op next ih =>
      intro s
      obtain ⟨trace, htrace⟩ := ih (answer op s).1 (answer op s).2
      exact ⟨_, .call htrace⟩

end Program

end OpenStreamGrid
