import Mathlib.Init

/-!
# Programs over a backend

A program is a tree: it ends with a result or with an error, or it calls an operation and goes
on by the answer. What answers the calls is not part of it.
-/

namespace Lib

inductive Program {Op : Type} (Answer : Op → Type) (ε α : Type)
  | done (result : α)
  | fail (err : ε)
  | call (op : Op) (next : Answer op → Program Answer ε α)

namespace Program

variable {Op : Type} {Answer : Op → Type} {ε α β : Type}

def bind (x : Program Answer ε α) (f : α → Program Answer ε β) : Program Answer ε β :=
  match x with
  | .done result => f result
  | .fail err => .fail err
  | .call op next => .call op fun answer => (next answer).bind f

instance : Monad (Program Answer ε) where
  pure := .done
  bind := bind

def ask (op : Op) : Program Answer ε (Answer op) := .call op .done

@[simp] theorem pure_eq (a : α) : (pure a : Program Answer ε α) = .done a := rfl

@[simp] theorem done_bind (a : α) (f : α → Program Answer ε β) : (.done a >>= f) = f a := rfl

@[simp] theorem fail_bind (err : ε) (f : α → Program Answer ε β) : (.fail err >>= f) = .fail err := rfl

@[simp] theorem call_bind (op : Op) (next : Answer op → Program Answer ε α) (f : α → Program Answer ε β) :
    (.call op next >>= f) = .call op fun answer => next answer >>= f := rfl

@[simp] theorem ask_bind (op : Op) (f : Answer op → Program Answer ε β) : (ask op >>= f) = .call op f := rfl

/-! ## What a program can call -/

inductive MayCall : Program Answer ε α → Op → Prop
  | here (op : Op) (next : Answer op → Program Answer ε α) : MayCall (.call op next) op
  | later {op op' : Op} {next : Answer op → Program Answer ε α} (answer : Answer op) :
    MayCall (next answer) op' → MayCall (.call op next) op'

def Ensures (allowed : Op → Prop) (wanted : α → Prop) : Program Answer ε α → Prop
  | .done result => wanted result
  | .fail _ => True
  | .call op next => allowed op ∧ ∀ answer, (next answer).Ensures allowed wanted

variable {allowed : Op → Prop} {wanted : α → Prop} {x : Program Answer ε α}

@[simp] theorem ensures_done (a : α) : (.done a : Program Answer ε α).Ensures allowed wanted ↔ wanted a := Iff.rfl

@[simp] theorem ensures_fail (err : ε) : (.fail err : Program Answer ε α).Ensures allowed wanted := trivial

@[simp] theorem ensures_call (op : Op) (next : Answer op → Program Answer ε α) :
    (Program.call op next).Ensures allowed wanted ↔ allowed op ∧ ∀ answer, (next answer).Ensures allowed wanted :=
  Iff.rfl

@[simp] theorem ensures_ask (op : Op) {wanted : Answer op → Prop} :
    (ask op : Program Answer ε _).Ensures allowed wanted ↔ allowed op ∧ ∀ answer, wanted answer := Iff.rfl

theorem Ensures.bind {f : α → Program Answer ε β} {wanted' : β → Prop} (hx : x.Ensures allowed wanted)
    (hf : ∀ a, wanted a → (f a).Ensures allowed wanted') :
    (x >>= f).Ensures allowed wanted' := by
  induction x with
  | done a => exact hf a hx
  | fail err => trivial
  | call op next ih => exact ⟨hx.1, fun answer => ih answer (hx.2 answer)⟩

theorem Ensures.mayCall {op : Op} (hx : x.Ensures allowed wanted) (hop : x.MayCall op) :
    allowed op := by
  induction hop with
  | here op next => exact hx.1
  | later answer _ ih => exact ih (hx.2 answer)

/-! ## Runs against fixed answers -/

def eval (answers : (op : Op) → Answer op) : Program Answer ε α → Except ε α
  | .done result => .ok result
  | .fail err => .error err
  | .call op next => (next (answers op)).eval answers

variable (answers : (op : Op) → Answer op)

@[simp] theorem eval_done (a : α) : (.done a : Program Answer ε α).eval answers = .ok a := rfl

@[simp] theorem eval_fail (err : ε) : (.fail err : Program Answer ε α).eval answers = .error err := rfl

@[simp] theorem eval_call (op : Op) (next : Answer op → Program Answer ε α) :
    (Program.call op next).eval answers = (next (answers op)).eval answers := rfl

theorem eval_bind (x : Program Answer ε α) (f : α → Program Answer ε β) :
    (x >>= f).eval answers = (x.eval answers).bind fun a => (f a).eval answers := by
  induction x with
  | done a => rfl
  | fail err => rfl
  | call op next ih => exact ih (answers op)

variable {answers}

theorem eval_bind_ok {a : α} (f : α → Program Answer ε β) (h : x.eval answers = .ok a) :
    (x >>= f).eval answers = (f a).eval answers := by
  rw [eval_bind, h]
  rfl

/-! ## Runs against a backend that changes -/

section Always

variable {σ : Type} (acts : (op : Op) → σ → Answer op → σ → Prop)

/-- Before every call the state meets `inv`, and a result meets `ends` with the state that it is given in. What a
call may answer, and where it may take the state, is up to `acts`. -/
def Always (inv : σ → Prop) (ends : α → σ → Prop) : Program Answer ε α → σ → Prop
  | .done result, s => ends result s
  | .fail _, _ => True
  | .call op next, s => inv s ∧ ∀ answer s', acts op s answer s' → (next answer).Always inv ends s'

variable {acts} {inv : σ → Prop} {ends : α → σ → Prop} {s : σ} {x : Program Answer ε α}

theorem Always.done {a : α} (h : ends a s) : (Program.done a : Program Answer ε α).Always acts inv ends s := h

theorem Always.ask {op : Op} {ends : Answer op → σ → Prop} (hinv : inv s)
    (hacts : ∀ answer s', acts op s answer s' → ends answer s') :
    (Program.ask op : Program Answer ε _).Always acts inv ends s := ⟨hinv, hacts⟩

theorem Always.bind {f : α → Program Answer ε β} {ends' : β → σ → Prop} (hx : x.Always acts inv ends s)
    (hf : ∀ a s', ends a s' → (f a).Always acts inv ends' s') :
    (x >>= f).Always acts inv ends' s := by
  induction x generalizing s with
  | done a => exact hf a s hx
  | fail err => trivial
  | call op next ih => exact ⟨hx.1, fun answer s' hacts => ih answer (hx.2 answer s' hacts)⟩

theorem Always.imp {ends' : α → σ → Prop} (hx : x.Always acts inv ends s) (himp : ∀ a s', ends a s' → ends' a s') :
    x.Always acts inv ends' s := by
  induction x generalizing s with
  | done a => exact himp a s hx
  | fail err => trivial
  | call op next ih => exact ⟨hx.1, fun answer s' hacts => ih answer (hx.2 answer s' hacts)⟩

inductive Runs (acts : (op : Op) → σ → Answer op → σ → Prop) : Program Answer ε α → σ → α → σ → Prop
  | done (a : α) (s : σ) : Runs acts (.done a) s a s
  | call {op : Op} {next : Answer op → Program Answer ε α} {s s' s'' : σ} {answer : Answer op} {a : α}
    (hacts : acts op s answer s') (hruns : Runs acts (next answer) s' a s'') : Runs acts (.call op next) s a s''

theorem Always.runs {a : α} {s' : σ} (h : x.Always acts inv ends s) (hruns : x.Runs acts s a s') : ends a s' := by
  induction hruns with
  | done => exact h
  | call hacts _ ih => exact ih (h.2 _ _ hacts)

end Always

/-! ## Runs without interruption -/

def exec {σ : Type} (perform : (op : Op) → σ → Option (Answer op × σ)) : Program Answer ε α → σ → Option (Except ε α × σ)
  | .done result, s => some (.ok result, s)
  | .fail err, s => some (.error err, s)
  | .call op next, s =>
    match perform op s with
    | none => none
    | some (answer, s') => (next answer).exec perform s'

theorem exec_bind {σ : Type} {perform : (op : Op) → σ → Option (Answer op × σ)} {a : α} {s s' : σ}
    (f : α → Program Answer ε β) (h : x.exec perform s = some (.ok a, s')) :
    (x >>= f).exec perform s = (f a).exec perform s' := by
  induction x generalizing s with
  | done b =>
    cases h
    rfl
  | fail err => cases h
  | call op next ih =>
    simp only [exec] at h
    simp only [call_bind, exec]
    split at h
    · cases h
    · exact ih _ h

end Program

end Lib
