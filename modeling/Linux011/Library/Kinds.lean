import Linux011.Library.Hoare

/-!
# Kinds of programs

Many facts about a program follow from the same facts about its parts: that
its stretches keep to a relation, or that it keeps an assertion.  Such a fact
makes a kind of programs.  That a function of a system belongs to every kind
to which its steps belong needs to be said only once.
-/

namespace Coop

variable {σ α β : Type}

namespace Prog

/-- A kind of programs that all programs belong to whose changes keep to
`relation` and whose panics have messages that `may` be. -/
structure Kind (relation : σ → σ → Prop) (may : String → Prop)
    (kind : (α : Type) → Prog σ α → Prop) : Prop where
  pure : ∀ {α : Type} {value : α}, kind α (pure value)
  bind : ∀ {α β : Type} {program : Prog σ β} {next : β → Prog σ α},
    kind β program → (∀ value, kind α (next value)) →
      kind α (program >>= next)
  get : ∀ {α : Type} {next : σ → Prog σ α}, (∀ state, kind α (next state)) →
    kind α (get >>= next)
  modify : ∀ {change : σ → σ}, (∀ state, relation state (change state)) →
    kind Unit (modify change)
  panic : ∀ {α : Type} {message : String}, may message → kind α (panic message)
  spent : ∀ {α : Type}, kind α spent
  cross : kind Unit cross
  waitUntil : ∀ {ready : σ → Bool}, kind Unit (waitUntil ready)
  sleep : kind Unit sleep
  unmarked : ∀ {α : Type} {program : Prog σ α}, kind α program →
    kind α program.unmarked

variable {relation : σ → σ → Prop} {may : String → Prop}
  {kind : (α : Type) → Prog σ α → Prop}

theorem Kind.upTo (kinds : Kind relation may kind)
    {body : Nat → Prog σ Unit} {count : Nat}
    (each : ∀ index, kind Unit (body index)) :
    kind Unit (upTo body count) := by
  induction count with
  | zero => exact kinds.pure
  | succ count induction => exact kinds.bind induction fun _ => each count

theorem Kind.narrow (kinds : Kind relation may kind)
    {narrower : σ → σ → Prop}
    (widens : ∀ first second, narrower first second → relation first second) :
    Kind narrower may kind where
  pure := kinds.pure
  bind := kinds.bind
  get := kinds.get
  modify := fun moves => kinds.modify fun state => widens _ _ (moves state)
  panic := kinds.panic
  spent := kinds.spent
  cross := kinds.cross
  waitUntil := kinds.waitUntil
  sleep := kinds.sleep
  unmarked := kinds.unmarked

/-- The programs that keep to a relation. -/
theorem kind_within [Steady relation] :
    Kind relation may fun _ program => program.Within relation where
  pure := within_pure _
  bind := within_bind
  get := within_get
  modify := within_modify
  panic := fun _ => keeps_panic
  spent := keeps_spent
  cross := within_cross
  waitUntil := within_waitUntil _
  sleep := within_sleep
  unmarked := Within.unmarked

/-- The programs that keep an assertion, and panic only as the fate allows. -/
theorem kind_stays {fate : Fate} {env : σ → σ → Prop} {holds : σ → Prop}
    (spent : fate.spent)
    (lasts : ∀ state next, holds state → env state next → holds next) :
    Kind (fun state next => holds state → holds next) fate.panic
      fun _ program => Stays fate env holds program where
  pure := stays_pure
  bind := stays_bind
  get := stays_read
  modify := stays_modify
  panic := stays_panic
  spent := stays_spent spent
  cross := stays_cross
  waitUntil := stays_waitUntil lasts
  sleep := stays_sleep lasts
  unmarked := by
    intro α program stays
    show Hoare fate env holds program.unmarked.unmarked fun _ => holds
    rw [unmarked_unmarked]
    exact stays

end Prog

end Coop
