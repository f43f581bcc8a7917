/-
# `TradePlatform.Lib.SessionLocks` — locks that belong to a session

Locks a session takes with a non-blocking try, may take again while it has them, gives
back one at a time, and loses all at once when it disconnects.  That a key is held by one
session only is a field, so a state in which two sessions hold it cannot be built.
-/
import Mathlib

structure SessionLocks (κ ς : Type*) where
  held : List (κ × ς)
  exclusive : ∀ a ∈ held, ∀ b ∈ held, a.1 = b.1 → a.2 = b.2

namespace SessionLocks

variable {κ ς : Type*}

def Holds (locks : SessionLocks κ ς) (key : κ) (session : ς) : Prop := (key, session) ∈ locks.held

theorem Holds.unique {locks : SessionLocks κ ς} {key : κ} {s t : ς} (hs : locks.Holds key s)
    (ht : locks.Holds key t) : s = t :=
  locks.exclusive _ hs _ ht rfl

def empty : SessionLocks κ ς := ⟨[], fun _ h => nomatch h⟩

variable [DecidableEq κ] [DecidableEq ς]

def tryLock (locks : SessionLocks κ ς) (key : κ) (session : ς) : Option (SessionLocks κ ς) :=
  if h : ∀ a ∈ locks.held, a.1 = key → a.2 = session then
    some
      { held := (key, session) :: locks.held
        exclusive := by
          intro a ha b hb hab
          rcases List.mem_cons.mp ha with rfl | ha <;> rcases List.mem_cons.mp hb with rfl | hb
          · rfl
          · exact (h b hb hab.symm).symm
          · exact h a ha hab
          · exact locks.exclusive a ha b hb hab }
  else none

def unlock (locks : SessionLocks κ ς) (key : κ) (session : ς) : SessionLocks κ ς where
  held := locks.held.erase (key, session)
  exclusive := fun a ha b hb =>
    locks.exclusive a (List.mem_of_mem_erase ha) b (List.mem_of_mem_erase hb)

def disconnect (locks : SessionLocks κ ς) (session : ς) : SessionLocks κ ς where
  held := locks.held.filter fun a => decide (a.2 ≠ session)
  exclusive := fun a ha b hb =>
    locks.exclusive a (List.mem_of_mem_filter ha) b (List.mem_of_mem_filter hb)

variable {locks locks' : SessionLocks κ ς} {key k : κ} {session s : ς}

theorem holds_of_tryLock (h : locks.tryLock key session = some locks') :
    locks'.Holds key session ∧ ∀ k s, locks.Holds k s → locks'.Holds k s := by
  unfold tryLock at h
  split at h
  · cases h
    exact ⟨List.mem_cons_self, fun _ _ hk => List.mem_cons_of_mem _ hk⟩
  · cases h

theorem Holds.unlock (h : locks.Holds k s) (hne : s ≠ session) :
    (locks.unlock key session).Holds k s :=
  (List.mem_erase_of_ne fun e => hne (congrArg Prod.snd e)).mpr h

omit [DecidableEq κ] in
theorem Holds.disconnect (h : locks.Holds k s) (hne : s ≠ session) :
    (locks.disconnect session).Holds k s :=
  List.mem_filter.mpr ⟨h, decide_eq_true hne⟩

end SessionLocks
