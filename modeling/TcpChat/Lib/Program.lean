import Mathlib.Data.List.Basic

/-! Programs that change a state, emit events, and may leave by an exception.
A state change made before an exception stays made, as in C++. A program can
also stay in a system call for ever, or leave the defined behaviour. -/
namespace TcpChat

inductive Outcome (X α : Type) where
  | returned (value : α)
  | thrown (exception : X)
  | blocked
  | undefined
  deriving DecidableEq

structure Result (S E X α : Type) where
  state : S
  events : List E
  outcome : Outcome X α
  deriving DecidableEq

def Program (S E X α : Type) : Type := S → Result S E X α

namespace Program

variable {S T E X α β : Type}

def andThen (r : Result S E X α) (f : α → Program S E X β) : Result S E X β :=
  match r.outcome with
  | .returned a =>
    let tail := f a r.state
    ⟨tail.state, r.events ++ tail.events, tail.outcome⟩
  | .thrown x => ⟨r.state, r.events, .thrown x⟩
  | .blocked => ⟨r.state, r.events, .blocked⟩
  | .undefined => ⟨r.state, r.events, .undefined⟩

instance : Monad (Program S E X) where
  pure a := fun s => ⟨s, [], .returned a⟩
  bind p f := fun s => andThen (p s) f

def get : Program S E X S := fun s => ⟨s, [], .returned s⟩
def modify (f : S → S) : Program S E X Unit := fun s => ⟨f s, [], .returned ()⟩
def emit (es : List E) : Program S E X Unit := fun s => ⟨s, es, .returned ()⟩
def throw (x : X) : Program S E X α := fun s => ⟨s, [], .thrown x⟩
def block : Program S E X α := fun s => ⟨s, [], .blocked⟩
def undefined : Program S E X α := fun s => ⟨s, [], .undefined⟩

/-- Run a program on one part of a larger state. -/
def zoom (part : S → T) (put : T → S → S) (p : Program T E X α) : Program S E X α := fun s =>
  let r := p (part s)
  ⟨put r.state s, r.events, r.outcome⟩

/-- Stack unwinding: what the destructors of the open scope do if `p` throws. -/
def unwinding (p : Program S E X α) (destructors : List E) : Program S E X α := fun s =>
  let r := p s
  match r.outcome with
  | .thrown x => ⟨r.state, r.events ++ destructors, .thrown x⟩
  | _ => r

@[simp] theorem pure_apply (a : α) (s : S) :
    (pure a : Program S E X α) s = ⟨s, [], .returned a⟩ := rfl
@[simp] theorem bind_apply (p : Program S E X α) (f : α → Program S E X β) (s : S) :
    (p >>= f) s = andThen (p s) f := rfl
@[simp] theorem get_apply (s : S) : (get : Program S E X S) s = ⟨s, [], .returned s⟩ := rfl
@[simp] theorem modify_apply (f : S → S) (s : S) :
    (modify f : Program S E X Unit) s = ⟨f s, [], .returned ()⟩ := rfl
@[simp] theorem emit_apply (es : List E) (s : S) :
    (emit es : Program S E X Unit) s = ⟨s, es, .returned ()⟩ := rfl
@[simp] theorem throw_apply (x : X) (s : S) :
    (throw x : Program S E X α) s = ⟨s, [], .thrown x⟩ := rfl
@[simp] theorem block_apply (s : S) : (block : Program S E X α) s = ⟨s, [], .blocked⟩ := rfl
@[simp] theorem undefined_apply (s : S) :
    (undefined : Program S E X α) s = ⟨s, [], .undefined⟩ := rfl
@[simp] theorem ite_apply (c : Prop) [Decidable c] (p q : Program S E X α) (s : S) :
    (if c then p else q) s = if c then p s else q s := by split <;> rfl

@[simp] theorem andThen_returned (s : S) (es : List E) (a : α) (f : α → Program S E X β) :
    andThen ⟨s, es, .returned a⟩ f = ⟨(f a s).state, es ++ (f a s).events, (f a s).outcome⟩ := rfl
@[simp high] theorem andThen_returned_nil (s : S) (a : α) (f : α → Program S E X β) :
    andThen ⟨s, [], .returned a⟩ f = f a s := rfl
@[simp] theorem andThen_thrown (s : S) (es : List E) (x : X) (f : α → Program S E X β) :
    andThen ⟨s, es, .thrown x⟩ f = ⟨s, es, .thrown x⟩ := rfl
@[simp] theorem andThen_blocked (s : S) (es : List E) (f : α → Program S E X β) :
    andThen ⟨s, es, .blocked⟩ f = ⟨s, es, .blocked⟩ := rfl
@[simp] theorem andThen_undefined (s : S) (es : List E) (f : α → Program S E X β) :
    andThen ⟨s, es, .undefined⟩ f = ⟨s, es, .undefined⟩ := rfl

end Program
end TcpChat
