import Mathlib.Data.List.Basic
import Mathlib.Logic.Function.Basic

/-!
# Hash chains

A list of entries in which each carries the hash that its predecessor's hash
and its own content make. `link previous e` says that `e` carries the right
hash after `previous`, and `hash` is what `e` carries. A verifier recomputes
the hashes from the front.

An entry is appended by linking it to the last hash (`chained_append_singleton`),
and an entry replaced by one that carries the same hash is found out unless
the hash fits that one too (`chained_replace`).
-/

namespace BlockMiner.HashChain

variable {ε η : Type*} (link : η → ε → Prop) (hash : ε → η)

def Chained : η → List ε → Prop
  | _, [] => True
  | previous, e :: es => link previous e ∧ Chained (hash e) es

/-- The hash that the next entry is linked to. -/
def lastHash (previous : η) (es : List ε) : η := es.getLast?.elim previous hash

@[simp] theorem lastHash_nil (previous : η) : lastHash hash previous [] = previous := rfl

@[simp] theorem lastHash_cons (previous : η) (e : ε) (es : List ε) :
    lastHash hash previous (e :: es) = lastHash hash (hash e) es := by
  rw [lastHash, List.getLast?_cons, lastHash]
  cases es.getLast? <;> rfl

variable {link hash}

theorem chained_append {previous : η} {es es' : List ε} :
    Chained link hash previous (es ++ es') ↔
      Chained link hash previous es ∧ Chained link hash (lastHash hash previous es) es' := by
  induction es generalizing previous with
  | nil => simp [Chained]
  | cons e es ih =>
      rw [List.cons_append, Chained, ih, lastHash_cons, Chained, and_assoc]

theorem chained_append_singleton {previous : η} {es : List ε} {e : ε}
    (h : Chained link hash previous es) (he : link (lastHash hash previous es) e) :
    Chained link hash previous (es ++ [e]) :=
  chained_append.mpr ⟨h, he, trivial⟩

/-- An entry that keeps its hash only matters to its own link. -/
theorem chained_replace {previous : η} {es es' : List ε} {e d : ε}
    (h : Chained link hash previous (es ++ e :: es')) (hhash : hash d = hash e) :
    Chained link hash previous (es ++ d :: es') ↔ link (lastHash hash previous es) d := by
  obtain ⟨hes, -, hes'⟩ := chained_append.mp h
  rw [chained_append, Chained, hhash]
  exact ⟨fun h' => h'.2.1, fun hd => ⟨hes, hd, hes'⟩⟩

instance decidableChained [∀ previous e, Decidable (link previous e)] :
    ∀ (previous : η) (es : List ε), Decidable (Chained link hash previous es)
  | _, [] => inferInstanceAs (Decidable True)
  | previous, e :: es =>
    have := decidableChained (hash e) es
    inferInstanceAs (Decidable (link previous e ∧ Chained link hash (hash e) es))

end BlockMiner.HashChain
