/-!
# Programs that ask

A program is either done or asks its surroundings one request and goes on with the answer. What may
be asked, and what is answered to each request, is its interface. Programs decide nothing about
their surroundings: `run` answers them from a state, and statements about all answers quantify over
the branches of the tree.
-/

set_option autoImplicit false

namespace InfraOperator

structure Interface where
  Request : Type
  Answer : Request → Type

inductive Program (I : Interface) (α : Type) where
  | done (value : α)
  | ask (request : I.Request) (next : I.Answer request → Program I α)

namespace Program

variable {I J : Interface} {α β γ σ : Type}

protected def bind (p : Program I α) (f : α → Program I β) : Program I β :=
  match p with
  | .done value => f value
  | .ask request next => .ask request fun answer => (next answer).bind f

instance : Monad (Program I) where
  pure := .done
  bind := Program.bind

def request (r : I.Request) : Program I (I.Answer r) := .ask r .done

@[simp] theorem done_bind (value : α) (f : α → Program I β) :
    (Program.done value >>= f) = f value := rfl

@[simp] theorem pure_bind' (value : α) (f : α → Program I β) :
    ((pure value : Program I α) >>= f) = f value := rfl

@[simp] theorem ask_bind (r : I.Request) (next : I.Answer r → Program I α)
    (f : α → Program I β) :
    (Program.ask r next >>= f) = .ask r fun answer => next answer >>= f := rfl

theorem bind_pure' (p : Program I α) : (p >>= pure) = p := by
  induction p with
  | done value => rfl
  | ask r next ih => exact congrArg (Program.ask r) (funext ih)

theorem bind_assoc' (p : Program I α) (f : α → Program I β) (g : β → Program I γ) :
    (p >>= f >>= g) = (p >>= fun a => f a >>= g) := by
  induction p with
  | done value => rfl
  | ask r next ih => exact congrArg (Program.ask r) (funext ih)

instance : LawfulMonad (Program I) :=
  LawfulMonad.mk' _ (fun p => bind_pure' p) (fun _ _ => rfl) fun p f g => bind_assoc' p f g

def run (answer : (r : I.Request) → σ → I.Answer r × σ) : Program I α → σ → α × σ
  | .done value, s => (value, s)
  | .ask r next, s => (next (answer r s).1).run answer (answer r s).2

def interpret {M : Type → Type} [Monad M] (f : (r : I.Request) → M (I.Answer r)) :
    Program I α → M α
  | .done value => pure value
  | .ask r next => f r >>= fun answer => (next answer).interpret f

theorem run_bind (answer : (r : I.Request) → σ → I.Answer r × σ) (p : Program I α)
    (f : α → Program I β) (s : σ) :
    (p >>= f).run answer s = (f (p.run answer s).1).run answer (p.run answer s).2 := by
  induction p generalizing s with
  | done value => rfl
  | ask r next ih => exact ih _ _

theorem interpret_bind {M : Type → Type} [Monad M] [LawfulMonad M]
    (f : (r : I.Request) → M (I.Answer r)) (p : Program I α) (g : α → Program I β) :
    (p >>= g).interpret f = (p.interpret f >>= fun a => (g a).interpret f) := by
  induction p with
  | done value => simp [interpret]
  | ask r next ih =>
    show (f r >>= fun answer => (next answer >>= g).interpret f) = _
    simp only [interpret, bind_assoc, ih]

end Program

end InfraOperator
