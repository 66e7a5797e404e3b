/-!
# References to the environment

A text may refer to variables of the environment, as `${NAME}` or, with a text for the case that
the variable is not set, as `${NAME:-text}`. References are replaced from left to right; what
replaces them is not looked at again.
-/
namespace Mqtt.Settings

/-- Variables and their values. -/
abbrev Environment := List (String × String)

/-- A reference to a variable, and what stands for it if it is not set. -/
structure Reference where
  name : List Char
  fallback : List Char := []
  deriving DecidableEq

namespace Reference

/-- Whether a character may stand in the name of a variable. -/
def isNameChar (c : Char) : Bool :=
  c ≠ '\x7d' && c ≠ ':'

/-- Whether a character may stand in a fallback. -/
def isFallbackChar (c : Char) : Bool :=
  c ≠ '\x7d'

/-- The fallback that may follow a name, up to the brace that closes the reference. -/
def readFallback? : List Char → Option (List Char × List Char)
  | '\x7d' :: rest => some ([], rest)
  | ':' :: '-' :: rest =>
    match rest.dropWhile isFallbackChar with
    | '\x7d' :: more => some (rest.takeWhile isFallbackChar, more)
    | _ => none
  | _ => none

/-- The reference at the front of a text, and what follows it. -/
def read? : List Char → Option (Reference × List Char)
  | '$' :: '\x7b' :: rest =>
    let name := rest.takeWhile isNameChar
    if name.isEmpty then none
    else (readFallback? (rest.dropWhile isNameChar)).map fun r => ({ name, fallback := r.1 }, r.2)
  | _ => none

/-- What stands for a reference. A variable that is set to the empty text counts as set. -/
def value (env : Environment) (r : Reference) : List Char :=
  ((env.lookup (String.ofList r.name)).map String.toList).getD r.fallback

theorem length_dropWhile_le {α : Type} (p : α → Bool) (l : List α) :
    (l.dropWhile p).length ≤ l.length :=
  (List.dropWhile_sublist p).length_le

theorem length_of_readFallback? {cs rest : List Char} {fallback : List Char}
    (h : readFallback? cs = some (fallback, rest)) : rest.length < cs.length := by
  unfold readFallback? at h
  split at h
  · cases h; simp
  · next more =>
    have := length_dropWhile_le isFallbackChar more
    split at h
    · next e =>
      cases h
      rw [e, List.length_cons] at this
      simp only [List.length_cons]
      omega
    · cases h
  · cases h

/-- A reference takes characters. -/
theorem length_of_read? {cs rest : List Char} {r : Reference} (h : read? cs = some (r, rest)) :
    rest.length < cs.length := by
  unfold read? at h
  split at h
  · next more =>
    simp only at h
    split at h
    · cases h
    · obtain ⟨⟨fallback, rest'⟩, hf, he⟩ := Option.map_eq_some_iff.mp h
      cases he
      have := length_of_readFallback? hf
      have := length_dropWhile_le isNameChar more
      simp only [List.length_cons]
      omega
  · cases h

end Reference

/-- Replaces the references in characters. -/
def substituteChars (env : Environment) : List Char → List Char
  | [] => []
  | c :: cs =>
    match _h : Reference.read? (c :: cs) with
    | some (r, rest) => r.value env ++ substituteChars env rest
    | none => c :: substituteChars env cs
termination_by cs => cs.length
decreasing_by
  · exact Reference.length_of_read? _h
  · simp

/-- Replaces the references in a text. -/
def substitute (env : Environment) (s : String) : String :=
  String.ofList (substituteChars env s.toList)

end Mqtt.Settings
