/-
# `TradePlatform.Lib.StreamReader` — reading a stream that arrives in pieces

A program that raises keeps what it did to its state.  Reading an exact number of items from a
buffer that is filled piece by piece depends on the stream only, what the buffer holds followed by
what is still to come, and not on where the pieces are cut; so does every program made of such
reads.
-/
import Mathlib

structure Raising (σ ε α : Type) where
  run : σ → Except ε α × σ

namespace Raising

variable {σ ε α β γ : Type}

instance : Monad (Raising σ ε) where
  pure a := ⟨fun s => (.ok a, s)⟩
  bind p f := ⟨fun s =>
    match p.run s with
    | (.error e, s') => (.error e, s')
    | (.ok a, s') => (f a).run s'⟩

def fail (e : ε) : Raising σ ε α := ⟨fun s => (.error e, s)⟩

variable {p : Raising σ ε α} {f : α → Raising σ ε β} {s s' : σ} {a : α} {b : β} {e : ε}

theorem bind_ok (h : p.run s = (.ok a, s')) : (p >>= f).run s = (f a).run s' := by
  show (match p.run s with
    | (.error e, s') => ((.error e : Except ε β), s')
    | (.ok a, s') => (f a).run s') = _
  rw [h]

theorem bind_error (h : p.run s = (.error e, s')) : (p >>= f).run s = (.error e, s') := by
  show (match p.run s with
    | (.error e, s') => ((.error e : Except ε β), s')
    | (.ok a, s') => (f a).run s') = _
  rw [h]

theorem bind_eq_ok : (p >>= f).run s = (.ok b, s') ↔
    ∃ a t, p.run s = (.ok a, t) ∧ (f a).run t = (.ok b, s') := by
  cases hp : p.run s with
  | mk result t =>
      cases result with
      | error e =>
          rw [bind_error hp]
          constructor
          · intro h
            cases h
          · rintro ⟨a, t', h, -⟩
            cases h
      | ok a =>
          rw [bind_ok hp]
          constructor
          · exact fun h => ⟨a, t, rfl, h⟩
          · rintro ⟨a', t', h, hf⟩
            cases h
            exact hf

/-! ## Programs that look at a part of the state -/

/-- The result, and the part of the state that is seen afterwards, depend on that part only. -/
def Sees (view : σ → γ) (p : Raising σ ε α) : Prop :=
  ∀ s t, view s = view t → (p.run s).1 = (p.run t).1 ∧ view (p.run s).2 = view (p.run t).2

variable {view : σ → γ}

theorem Sees.pure (a : α) : Sees view (pure a : Raising σ ε α) := fun _ _ h => ⟨rfl, h⟩

theorem Sees.fail (e : ε) : Sees view (fail e : Raising σ ε α) := fun _ _ h => ⟨rfl, h⟩

theorem Sees.bind (hp : Sees view p) (hf : ∀ a, Sees view (f a)) : Sees view (p >>= f) := by
  intro s t h
  obtain ⟨hresult, hview⟩ := hp s t h
  cases hs : p.run s with
  | mk result s' =>
      cases ht : p.run t with
      | mk result' t' =>
          rw [hs, ht] at hresult hview
          obtain rfl : result = result' := hresult
          cases result with
          | error e =>
              rw [bind_error hs, bind_error ht]
              exact ⟨rfl, hview⟩
          | ok a =>
              rw [bind_ok hs, bind_ok ht]
              exact hf a s' t' hview

theorem Sees.ite {c : Prop} [Decidable c] {q : Raising σ ε α} (hp : Sees view p)
    (hq : Sees view q) : Sees view (if c then p else q) := by
  split
  · exact hp
  · exact hq

end Raising

namespace StreamReader

variable {α : Type}

/-- What has been received and not been read, and the pieces still to come; a piece is empty only
at the end of the stream. -/
structure Source (α : Type) where
  buffer : List α
  chunks : List (List α)
  chunks_ne : ∀ chunk ∈ chunks, chunk ≠ []

def Source.stream (s : Source α) : List α := s.buffer ++ s.chunks.flatten

def Source.whole (stream : List α) : Source α := ⟨stream, [], fun _ h => absurd h List.not_mem_nil⟩

theorem Source.stream_whole (stream : List α) : (Source.whole stream).stream = stream :=
  List.append_nil stream

/-- Receive pieces until the buffer holds `count` items or the stream ends. -/
def fill (count : ℕ) (s : Source α) : Source α :=
  match s with
  | ⟨buffer, [], h⟩ => ⟨buffer, [], h⟩
  | ⟨buffer, chunk :: chunks, h⟩ =>
      if buffer.length < count then
        fill count ⟨buffer ++ chunk, chunks, fun c hc => h c (List.mem_cons_of_mem _ hc)⟩
      else ⟨buffer, chunk :: chunks, h⟩
termination_by s.chunks.length

/-- Take `count` items from the front, or leave the buffer as it is if the stream ends before. -/
def readExact (count : ℕ) (s : Source α) : Option (List α) × Source α :=
  let filled := fill count s
  if filled.buffer.length < count then (none, filled)
  else (some (filled.buffer.take count), { filled with buffer := filled.buffer.drop count })

theorem stream_fill (count : ℕ) (s : Source α) : (fill count s).stream = s.stream := by
  induction s using fill.induct count with
  | case1 buffer h => rw [fill]
  | case2 buffer chunk chunks h hlt ih =>
      rw [fill, if_pos hlt, ih]
      unfold Source.stream
      rw [List.append_assoc]
      rfl
  | case3 buffer chunk chunks h hge => rw [fill, if_neg hge]

theorem stream_of_short {count : ℕ} {s : Source α} (h : (fill count s).buffer.length < count) :
    (fill count s).buffer = s.stream := by
  induction s using fill.induct count with
  | case1 buffer hne =>
      rw [fill]
      exact (List.append_nil buffer).symm
  | case2 buffer chunk chunks hne hlt ih =>
      rw [fill, if_pos hlt] at h ⊢
      rw [ih h]
      unfold Source.stream
      rw [List.append_assoc]
      rfl
  | case3 buffer chunk chunks hne hge =>
      rw [fill, if_neg hge] at h
      exact absurd h hge

theorem readExact_of_le {count : ℕ} {s : Source α} (h : count ≤ s.stream.length) :
    (readExact count s).1 = some (s.stream.take count) ∧
      (readExact count s).2.stream = s.stream.drop count := by
  have hlong : ¬ (fill count s).buffer.length < count := by
    intro hshort
    rw [stream_of_short hshort] at hshort
    omega
  have hle := not_lt.mp hlong
  unfold readExact
  rw [if_neg hlong, ← stream_fill count s]
  unfold Source.stream
  rw [List.take_append_of_le_length hle, List.drop_append_of_le_length hle]
  exact ⟨rfl, rfl⟩

theorem readExact_of_lt {count : ℕ} {s : Source α} (h : s.stream.length < count) :
    (readExact count s).1 = none ∧ (readExact count s).2.stream = s.stream := by
  have hshort : (fill count s).buffer.length < count := by
    refine lt_of_le_of_lt ?_ h
    rw [← stream_fill count s]
    exact List.length_append ▸ Nat.le_add_right _ _
  unfold readExact
  rw [if_pos hshort]
  exact ⟨rfl, stream_fill count s⟩

end StreamReader
