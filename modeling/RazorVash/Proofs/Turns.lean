import RazorVash.Text.Basic

namespace RazorVash

/-- A text under change, split at the place where the next turn begins to look. -/
structure Cursor where
  done : Text
  left : Text

def Cursor.text (c : Cursor) : Text := c.done ++ c.left

/-- What a loop does next: it stops, or it takes a turn, which may be its last one. -/
inductive Next (σ ρ : Type)
  | stop (result : ρ)
  | last (result : ρ)
  | turn (state : σ)

variable {σ ρ : Type}

inductive EndsAfter (next : σ → Next σ ρ) : Nat → σ → ρ → Prop
  | stop {s : σ} {r : ρ} (h : next s = .stop r) : EndsAfter next 0 s r
  | last {s : σ} {r : ρ} (h : next s = .last r) : EndsAfter next 1 s r
  | turn {s s' : σ} {r : ρ} {turns : Nat} (h : next s = .turn s')
      (hRest : EndsAfter next turns s' r) : EndsAfter next (turns + 1) s r

/-- A turn takes something off the measure and leaves the result that is to come. -/
def Next.Descends (measure : σ → Nat) (result : σ → ρ) (s : σ) : Next σ ρ → Prop
  | .stop r => result s = r
  | .last r => result s = r ∧ 0 < measure s
  | .turn s' => result s = result s' ∧ measure s' < measure s

theorem exists_endsAfter {next : σ → Next σ ρ} {measure : σ → Nat} {result : σ → ρ}
    (h : ∀ s, (next s).Descends measure result s) (s : σ) :
    ∃ turns ≤ measure s, EndsAfter next turns s (result s) := by
  -- the last turn counts too, so it has to find something left of the measure
  induction hm : measure s using Nat.strongRecOn generalizing s with
  | ind m ih =>
    subst hm
    have hs := h s
    cases hNext : next s with
    | stop r =>
      rw [hNext] at hs
      obtain rfl : result s = r := hs
      exact ⟨0, Nat.zero_le _, .stop hNext⟩
    | last r =>
      rw [hNext] at hs
      obtain ⟨rfl, hPos⟩ := hs
      exact ⟨1, hPos, .last hNext⟩
    | turn s' =>
      rw [hNext] at hs
      obtain ⟨hResult, hLess⟩ := hs
      obtain ⟨turns, hTurns, hEnds⟩ := ih _ hLess s' rfl
      rw [hResult]
      exact ⟨turns + 1, Nat.lt_of_le_of_lt hTurns hLess, .turn hNext hEnds⟩

def Next.Keeps (holds : σ → Prop) (good : ρ → Prop) : Next σ ρ → Prop
  | .stop r => good r
  | .last r => good r
  | .turn s => holds s

theorem EndsAfter.good {next : σ → Next σ ρ} {turns : Nat} {s : σ} {r : ρ}
    (h : EndsAfter next turns s r) (holds : σ → Prop) (good : ρ → Prop)
    (hKeeps : ∀ s, holds s → (next s).Keeps holds good) (hs : holds s) : good r := by
  induction h with
  | @stop s r hNext =>
    have hGood := hKeeps s hs
    rwa [hNext] at hGood
  | @last s r hNext =>
    have hGood := hKeeps s hs
    rwa [hNext] at hGood
  | @turn s s' r turns hNext _ ih =>
    have hState := hKeeps s hs
    rw [hNext] at hState
    exact ih hState

end RazorVash
