/-!
  # Inputs one after the other

  Bytes come in fragments, and operations one after the other. What takes them in has a state, and for
  each of them something is put out. A run over a list of inputs is the same for an accumulator, for
  one buffer, for the buffers of all flows and for an engine: only the step differs.

  1. `takeEach` -- a step for each input;
  2. what a run keeps, and two runs side by side;
  3. `takeNumbered` -- runs in which some of what is put out is numbered through.

  Main facts: **`takeEach_keeps`**, **`takeEach_silent`** and **`takeNumbered_related`**.
-/

namespace TrafficGate

variable {α β σ τ : Type}

/-! ## 1. A step for each input -/

/-- Takes in inputs, one after the other: all that is put out, in order, and the state behind them. -/
def takeEach (step : α → σ → List β × σ) : List α → σ → List β × σ
  | [], s => ([], s)
  | a :: rest, s =>
    let (out, next) := step a s
    let (more, last) := takeEach step rest next
    (out ++ more, last)

section Run

variable {step : α → σ → List β × σ} {step' : α → τ → List β × τ} {inputs : List α} {s : σ} {t : τ}

/-! ## 2. What a run keeps -/

/-- **What every step keeps, a run keeps**, and what every step puts out is of one kind. The invariant
    is about the inputs still to come as well. -/
theorem takeEach_keeps {I : List α → σ → Prop} {K : β → Prop}
    (hstep : ∀ {a rest s}, I (a :: rest) s →
      (∀ b ∈ (step a s).1, K b) ∧ I rest (step a s).2) (h : I inputs s) :
    (∀ b ∈ (takeEach step inputs s).1, K b) ∧ I [] (takeEach step inputs s).2 := by
  induction inputs generalizing s with
  | nil => exact ⟨nofun, h⟩
  | cons a inputs ih =>
    obtain ⟨hout, hnext⟩ := hstep h
    obtain ⟨hmore, hlast⟩ := ih hnext
    refine ⟨fun b hb => ?_, hlast⟩
    rcases List.mem_append.mp hb with hb | hb
    · exact hout b hb
    · exact hmore b hb

/-- **A run that puts nothing out** keeps what every step keeps that puts nothing out. -/
theorem takeEach_silent {I : σ → Prop}
    (hstep : ∀ {a s}, (step a s).1 = [] → I s → I (step a s).2)
    (hnothing : (takeEach step inputs s).1 = []) (h : I s) : I (takeEach step inputs s).2 := by
  induction inputs generalizing s with
  | nil => exact h
  | cons a inputs ih =>
    obtain ⟨hfirst, hmore⟩ := List.append_eq_nil_iff.mp hnothing
    exact ih hmore (hstep hfirst h)

/-- **Two runs side by side.** Steps that put out the same and keep two states related are runs that
    do. -/
theorem takeEach_related {R : σ → τ → Prop}
    (hstep : ∀ a ∈ inputs, ∀ {s t}, R s t →
      (step a s).1 = (step' a t).1 ∧ R (step a s).2 (step' a t).2) (h : R s t) :
    (takeEach step inputs s).1 = (takeEach step' inputs t).1 ∧
      R (takeEach step inputs s).2 (takeEach step' inputs t).2 := by
  induction inputs generalizing s t with
  | nil => exact ⟨rfl, h⟩
  | cons a inputs ih =>
    obtain ⟨hout, hnext⟩ := hstep a List.mem_cons_self h
    obtain ⟨hmore, hlast⟩ := ih (fun x hx => hstep x (List.mem_cons_of_mem a hx)) hnext
    exact ⟨by simp only [takeEach, hout, hmore], hlast⟩

end Run

/-! ## 3. Runs with a number -/

/-- A step with a number beside its state. It answers questions about what is still to come, which
    are asked from this number on, and what is put out counts. -/
def numbered (count : List β → Nat) (step : (Nat → Bool) → α → σ → List β × σ)
    (answersHead : Nat → Bool) (a : α) (s : Nat × σ) : List β × Nat × σ :=
  let (out, next) := step (fun i => answersHead (s.1 + i)) a s.2
  (out, s.1 + count out, next)

/-- Takes in inputs, one after the other. What counts of all that is put out is numbered through: `n`
    of it came before. -/
def takeNumbered (count : List β → Nat) (step : (Nat → Bool) → α → σ → List β × σ)
    (answersHead : Nat → Bool) (n : Nat) (inputs : List α) (s : σ) : List β × σ :=
  let (out, _, last) := takeEach (numbered count step answersHead) inputs (n, s)
  (out, last)

section Numbered

variable {count : List β → Nat} {step : (Nat → Bool) → α → σ → List β × σ}
  {step' : (Nat → Bool) → α → τ → List β × τ} {answersHead : Nat → Bool} {n : Nat} {a : α}
  {inputs : List α} {s : σ} {t : τ}

theorem takeNumbered_cons : takeNumbered count step answersHead n (a :: inputs) s =
    let (out, next) := step (fun i => answersHead (n + i)) a s
    let (more, last) := takeNumbered count step answersHead (n + count out) inputs next
    (out ++ more, last) := rfl

/-- **Two numbered runs side by side.** -/
theorem takeNumbered_related {R : σ → τ → Prop}
    (hstep : ∀ a ∈ inputs, ∀ answersHead {s t}, R s t →
      (step answersHead a s).1 = (step' answersHead a t).1 ∧
        R (step answersHead a s).2 (step' answersHead a t).2) (h : R s t) :
    (takeNumbered count step answersHead n inputs s).1 =
        (takeNumbered count step' answersHead n inputs t).1 ∧
      R (takeNumbered count step answersHead n inputs s).2
        (takeNumbered count step' answersHead n inputs t).2 := by
  have hpair : ∀ a ∈ inputs, ∀ {p : Nat × σ} {q : Nat × τ}, p.1 = q.1 ∧ R p.2 q.2 →
      (numbered count step answersHead a p).1 = (numbered count step' answersHead a q).1 ∧
        (numbered count step answersHead a p).2.1 = (numbered count step' answersHead a q).2.1 ∧
        R (numbered count step answersHead a p).2.2 (numbered count step' answersHead a q).2.2 := by
    rintro a ha ⟨m, s⟩ ⟨_, t⟩ ⟨rfl, hrelated⟩
    obtain ⟨hout, hnext⟩ := hstep a ha (fun i => answersHead (m + i)) hrelated
    exact ⟨hout, congrArg (m + count ·) hout, hnext⟩
  have hstart : (n, s).1 = (n, t).1 ∧ R (n, s).2 (n, t).2 := ⟨rfl, h⟩
  obtain ⟨hout, _, hlast⟩ := takeEach_related
    (R := fun (p : Nat × σ) (q : Nat × τ) => p.1 = q.1 ∧ R p.2 q.2) hpair hstart
  exact ⟨hout, hlast⟩

end Numbered

end TrafficGate
