/-
# `TradePlatform.OffsiteLedger` — the ledger of the off-site backup

`read_ledger` and `_append_ledger` of `capture_offsite.py`.  A ledger is a log of lines; an
object's first line fixes what was sent, and a later verification of the same hashes upgrades
it.  A log in which every object was sent once and verified only as it was sent folds to
entries that agree with all of their lines.
-/
import TradePlatform.Domain
import TradePlatform.Lib.Dict
import TradePlatform.Lib.LineLog

namespace TradePlatform

namespace Offsite

open JsonLines LineLog

inductive ObjectState where
  | uploaded | remoteExistsUnverified | restoreVerified
deriving DecidableEq, Repr

namespace ObjectState

def text : ObjectState → String
  | .uploaded => "UPLOADED"
  | .remoteExistsUnverified => "REMOTE_EXISTS_UNVERIFIED"
  | .restoreVerified => "RESTORE_VERIFIED"

def ofText (outcome : String) : ObjectState :=
  if outcome = uploaded.text then .uploaded
  else if outcome = restoreVerified.text then .restoreVerified
  else .remoteExistsUnverified

theorem ofText_text (state : ObjectState) : ofText state.text = state := by
  cases state with
  | uploaded => rfl
  | remoteExistsUnverified => decide
  | restoreVerified => decide

end ObjectState

structure LedgerLine where
  object : String
  manifestContentHash : String
  tarSha256 : String
  bytes : ℕ
  outcome : String
  at_ : ℤ
deriving DecidableEq, Encodable

structure LedgerEntryV1 where
  manifestContentHash : String
  tarSha256 : String
  size : ℕ
  firstAt : ℤ
  state : ObjectState
deriving DecidableEq

def LedgerLine.entry (line : LedgerLine) : LedgerEntryV1 :=
  ⟨line.manifestContentHash, line.tarSha256, line.bytes, line.at_, .ofText line.outcome⟩

/-- What `read_ledger` returns: the entries by object, and the objects whose lines disagree. -/
structure Ledger where
  entries : Dict String LedgerEntryV1
  inconsistent : List String

namespace Ledger

def empty : Ledger := ⟨Dict.empty, []⟩

variable (ledger : Ledger)

def get? (object : String) : Option LedgerEntryV1 := Dict.get? ledger.entries object

def set (object : String) (entry : LedgerEntryV1) : Ledger :=
  { ledger with entries := Dict.set ledger.entries object entry }

def disagree (object : String) : Ledger :=
  { ledger with inconsistent :=
      if object ∈ ledger.inconsistent then ledger.inconsistent else object :: ledger.inconsistent }

def readLine (line : LedgerLine) : Ledger :=
  match ledger.get? line.object with
  | none =>
      -- a verification of something never sent
      if line.entry.state = .restoreVerified then ledger.disagree line.object
      else ledger.set line.object line.entry
  | some previous =>
      if (previous.manifestContentHash, previous.tarSha256) ≠
          (line.manifestContentHash, line.tarSha256) then ledger.disagree line.object
      else if line.entry.state = .restoreVerified then
        ledger.set line.object { previous with state := .restoreVerified }
      else ledger

def ofLog (log : List LedgerLine) : Ledger := log.foldl readLine empty

end Ledger

def readLedger (coding : Coding LedgerLine) (text : Text) : Ledger :=
  Ledger.ofLog (decoded coding text)

/-! ## Logs in which every object was sent once -/

namespace Ledger

@[simp] theorem get?_set_self {ledger : Ledger} {object : String} {entry : LedgerEntryV1} :
    (ledger.set object entry).get? object = some entry := Dict.get?_set_self

theorem get?_set_of_ne {ledger : Ledger} {object other : String} {entry : LedgerEntryV1}
    (h : object ≠ other) : (ledger.set object entry).get? other = ledger.get? other :=
  Dict.get?_set_of_ne h

theorem ofLog_snoc (log : List LedgerLine) (line : LedgerLine) :
    ofLog (log ++ [line]) = (ofLog log).readLine line := by
  unfold ofLog
  rw [List.foldl_append, List.foldl_cons, List.foldl_nil]

theorem readLine_sent {ledger : Ledger} {line : LedgerLine} (h : ledger.get? line.object = none)
    (hstate : line.entry.state ≠ .restoreVerified) :
    ledger.readLine line = ledger.set line.object line.entry := by
  unfold readLine
  rw [h]
  exact if_neg hstate

theorem readLine_verified {ledger : Ledger} {line : LedgerLine} {entry : LedgerEntryV1}
    (h : ledger.get? line.object = some entry)
    (hmanifest : line.manifestContentHash = entry.manifestContentHash)
    (htar : line.tarSha256 = entry.tarSha256) (hstate : line.entry.state = .restoreVerified) :
    ledger.readLine line = ledger.set line.object { entry with state := .restoreVerified } := by
  unfold readLine
  rw [h]
  dsimp only
  rw [if_neg (by rw [hmanifest, htar]; exact not_not.mpr rfl), if_pos hstate]

end Ledger

def LedgerEntryV1.Agrees (entry : LedgerEntryV1) (line : LedgerLine) : Prop :=
  entry.manifestContentHash = line.manifestContentHash ∧ entry.tarSha256 = line.tarSha256 ∧
    entry.size = line.bytes

def firstLine (log : List LedgerLine) (object : String) : Option LedgerLine :=
  log.find? fun line => line.object = object

/-- What a log folds to: no object's lines disagree, every line agrees with its object's entry,
and a verified entry has a receipt that names the hash of the object's first line. -/
structure Coherent (log : List LedgerLine) (receipts : List (String × String)) : Prop where
  consistent : (Ledger.ofLog log).inconsistent = []
  agrees : ∀ line ∈ log, ∃ entry, (Ledger.ofLog log).get? line.object = some entry ∧
    entry.Agrees line
  first : ∀ object entry, (Ledger.ofLog log).get? object = some entry →
    ∃ line, firstLine log object = some line ∧ entry.Agrees line ∧
      (entry.state = .restoreVerified → (object, line.tarSha256) ∈ receipts)

variable {log : List LedgerLine} {receipts : List (String × String)} {line : LedgerLine}

theorem Coherent.nil : Coherent [] receipts := by
  refine ⟨rfl, ?_, ?_⟩
  · intro line hline
    cases hline
  · intro object entry h
    cases h

theorem Coherent.mono {receipts' : List (String × String)} (h : Coherent log receipts)
    (hsub : receipts ⊆ receipts') : Coherent log receipts' := by
  refine ⟨h.consistent, h.agrees, ?_⟩
  intro object entry hentry
  obtain ⟨line, hline, hagrees, hreceipt⟩ := h.first object entry hentry
  exact ⟨line, hline, hagrees, fun hstate => hsub (hreceipt hstate)⟩

theorem firstLine_snoc {object : String} {found : LedgerLine}
    (h : firstLine log object = some found) : firstLine (log ++ [line]) object = some found := by
  unfold firstLine
  rw [List.find?_append, show log.find? _ = _ from h]
  rfl

theorem Coherent.firstLine_none (h : Coherent log receipts) {object : String}
    (hnone : (Ledger.ofLog log).get? object = none) : firstLine log object = none := by
  refine List.find?_eq_none.mpr ?_
  intro other hother heq
  obtain ⟨entry, hentry, -⟩ := h.agrees other hother
  rw [of_decide_eq_true heq, hnone] at hentry
  cases hentry

theorem Coherent.sent (h : Coherent log receipts)
    (hnone : (Ledger.ofLog log).get? line.object = none)
    (hstate : line.entry.state ≠ .restoreVerified) : Coherent (log ++ [line]) receipts := by
  have hread : Ledger.ofLog (log ++ [line]) =
      (Ledger.ofLog log).set line.object line.entry := by
    rw [Ledger.ofLog_snoc, Ledger.readLine_sent hnone hstate]
  refine ⟨?_, ?_, ?_⟩
  · rw [hread]
    exact h.consistent
  · intro other hother
    rw [hread]
    rcases List.mem_append.mp hother with hother | hother
    · obtain ⟨entry, hentry, hagrees⟩ := h.agrees other hother
      have hne : line.object ≠ other.object := by
        intro heq
        rw [heq, hentry] at hnone
        cases hnone
      exact ⟨entry, by rw [Ledger.get?_set_of_ne hne, hentry], hagrees⟩
    · obtain rfl := List.mem_singleton.mp hother
      exact ⟨other.entry, Ledger.get?_set_self, rfl, rfl, rfl⟩
  · intro object entry hentry
    rw [hread] at hentry
    rcases eq_or_ne line.object object with rfl | hne
    · rw [Ledger.get?_set_self] at hentry
      obtain rfl := Option.some.inj hentry
      refine ⟨line, ?_, ⟨rfl, rfl, rfl⟩, fun hverified => absurd hverified hstate⟩
      have hfirst := h.firstLine_none hnone
      unfold firstLine at hfirst ⊢
      rw [List.find?_append, hfirst]
      simp
    · rw [Ledger.get?_set_of_ne hne] at hentry
      obtain ⟨found, hfound, hagrees⟩ := h.first object entry hentry
      exact ⟨found, firstLine_snoc hfound, hagrees⟩

theorem Coherent.verified (h : Coherent log receipts) {entry : LedgerEntryV1}
    (hentry : (Ledger.ofLog log).get? line.object = some entry) (hagrees : entry.Agrees line)
    (hstate : line.entry.state = .restoreVerified)
    (hreceipt : (line.object, line.tarSha256) ∈ receipts) : Coherent (log ++ [line]) receipts := by
  have hread : Ledger.ofLog (log ++ [line]) =
      (Ledger.ofLog log).set line.object { entry with state := .restoreVerified } := by
    rw [Ledger.ofLog_snoc,
      Ledger.readLine_verified hentry hagrees.1.symm hagrees.2.1.symm hstate]
  refine ⟨?_, ?_, ?_⟩
  · rw [hread]
    exact h.consistent
  · intro other hother
    rw [hread]
    rcases List.mem_append.mp hother with hother | hother
    · obtain ⟨found, hfound, hold⟩ := h.agrees other hother
      rcases eq_or_ne line.object other.object with heq | hne
      · rw [← heq, hentry] at hfound
        obtain rfl := Option.some.inj hfound
        rw [← heq]
        exact ⟨_, Ledger.get?_set_self, hold⟩
      · exact ⟨found, by rw [Ledger.get?_set_of_ne hne, hfound], hold⟩
    · obtain rfl := List.mem_singleton.mp hother
      exact ⟨_, Ledger.get?_set_self, hagrees⟩
  · intro object found hfound
    rw [hread] at hfound
    rcases eq_or_ne line.object object with rfl | hne
    · rw [Ledger.get?_set_self] at hfound
      obtain rfl := Option.some.inj hfound
      obtain ⟨first, hfirst, hold, -⟩ := h.first _ entry hentry
      refine ⟨first, firstLine_snoc hfirst, hold, ?_⟩
      intro _
      rw [← hold.2.1, hagrees.2.1]
      exact hreceipt
    · rw [Ledger.get?_set_of_ne hne] at hfound
      obtain ⟨first, hfirst, hold⟩ := h.first object found hfound
      exact ⟨first, firstLine_snoc hfirst, hold⟩

end Offsite

end TradePlatform
