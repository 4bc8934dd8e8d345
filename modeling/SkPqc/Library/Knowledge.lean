import Mathlib.Data.List.Basic

/-!
# What an observer knows

Letters are public. Each encloses a secret and is addressed to the holders of certain keys.
An observer keeps all letters, holds some keys, and has come by some secrets that leaked. It
knows these secrets, and those that a key of its own opens a letter to. From a secret it
derives, in any context, an output.

When letters open for those that they are addressed to alone, the observer knows what
leaked and what was addressed to it (`knows_iff`). When outputs tell the secrets that they
were derived from, the same holds of outputs (`derives_iff`).
-/

set_option autoImplicit false

namespace SkPqc.Library

variable {Key Letter Text Secret Context Output : Type}

/-- What an observer has come by: keys, and secrets that leaked. -/
structure Observer (Key Secret : Type) where
  holds : List Key
  leaked : List Secret

/-- Letters with their public texts, their secrets and the keys they are addressed to. -/
structure Post (Key Letter Text Secret : Type) where
  sent : Letter → Prop
  text : Letter → Text
  secret : Letter → Secret
  addressed : Letter → Key → Prop

namespace Observer

variable (observer : Observer Key Secret) (post : Post Key Letter Text Secret)
  (opens : Key → Text → Secret → Prop) (derive : Secret → Context → Output)

/-- The secrets that an observer knows. -/
inductive Knows : Secret → Prop
  | leaked {secret : Secret} (known : secret ∈ observer.leaked) : Knows secret
  | opened {letter : Letter} {key : Key} {secret : Secret} (sent : post.sent letter)
      (held : key ∈ observer.holds) (opened : opens key (post.text letter) secret) : Knows secret

/-- The outputs that it derives from these, in any context. -/
def Derives (output : Output) : Prop :=
  ∃ secret context, observer.Knows post opens secret ∧ output = derive secret context

/-- A key of the observer opens letters that are addressed to it, to their own secrets, and
no others. -/
def Exact : Prop :=
  ∀ letter, post.sent letter → ∀ key ∈ observer.holds, ∀ secret,
    opens key (post.text letter) secret ↔ post.addressed letter key ∧ secret = post.secret letter

/-- Of the letters with a secret, one is addressed to the observer. -/
def Addressed (secret : Secret) : Prop :=
  ∃ letter, post.sent letter ∧ post.secret letter = secret ∧
    ∃ key ∈ observer.holds, post.addressed letter key

variable {observer post opens derive}

theorem knows_iff (exact : observer.Exact post opens) {secret : Secret} :
    observer.Knows post opens secret ↔
      secret ∈ observer.leaked ∨ observer.Addressed post secret := by
  constructor
  · intro known
    cases known with
    | leaked known => exact .inl known
    | opened sent held opened =>
        obtain ⟨addressed, rfl⟩ := (exact _ sent _ held _).mp opened
        exact .inr ⟨_, sent, rfl, _, held, addressed⟩
  · rintro (known | ⟨letter, sent, rfl, key, held, addressed⟩)
    · exact .leaked known
    · exact .opened sent held ((exact _ sent _ held _).mpr ⟨addressed, rfl⟩)

/-- An output is derived exactly when its secret leaked or was addressed to the observer. -/
theorem derives_iff (exact : observer.Exact post opens)
    (tells : ∀ secret secret' context context', derive secret context = derive secret' context' →
      secret = secret') {secret : Secret} {context : Context} :
    observer.Derives post opens derive (derive secret context) ↔
      secret ∈ observer.leaked ∨ observer.Addressed post secret := by
  rw [← knows_iff exact]
  constructor
  · rintro ⟨other, context', known, same⟩
    rw [tells _ _ _ _ same]
    exact known
  · intro known
    exact ⟨secret, context, known, rfl⟩

end Observer

end SkPqc.Library
