/-
# `TradePlatform.Lib.MixedRadix` — numbers of mixed radices

A number below the product of its radices has one digit for each, the last varying fastest.  The
digits come off at the end by division, and Horner's rule takes them up again from the front.
-/
import Mathlib

namespace MixedRadix

def decode : List ℕ → ℕ → List ℕ
  | [], _ => []
  | _ :: bases, i => i / bases.prod :: decode bases (i % bases.prod)

def encode : ℕ → List ℕ → List ℕ → ℕ
  | front, base :: bases, digit :: digits => encode (front * base + digit) bases digits
  | front, _, _ => front

abbrev Within (digits bases : List ℕ) : Prop := List.Forall₂ (· < ·) digits bases

variable {bases digits : List ℕ} {i front : ℕ}

theorem prod_pos (h : ∀ base ∈ bases, 0 < base) : 0 < bases.prod := List.prod_pos h

theorem decode_within (h : ∀ base ∈ bases, 0 < base) (hi : i < bases.prod) :
    Within (decode bases i) bases := by
  induction bases generalizing i with
  | nil => exact .nil
  | cons base bases ih =>
      have hpos := prod_pos fun b hb => h b (List.mem_cons_of_mem _ hb)
      rw [List.prod_cons] at hi
      exact .cons ((Nat.div_lt_iff_lt_mul hpos).mpr hi)
        (ih (fun b hb => h b (List.mem_cons_of_mem _ hb)) (Nat.mod_lt _ hpos))

theorem encode_decode (h : ∀ base ∈ bases, 0 < base) (hi : i < bases.prod) :
    encode front bases (decode bases i) = front * bases.prod + i := by
  induction bases generalizing i front with
  | nil =>
      rw [List.prod_nil, Nat.lt_one_iff] at hi
      rw [hi]
      simp [encode]
  | cons base bases ih =>
      have hpos := prod_pos fun b hb => h b (List.mem_cons_of_mem _ hb)
      rw [decode, encode, ih (fun b hb => h b (List.mem_cons_of_mem _ hb)) (Nat.mod_lt _ hpos),
        List.prod_cons, add_mul, mul_assoc, add_assoc, mul_comm (i / bases.prod), Nat.div_add_mod]

theorem encode_lt (h : Within digits bases) :
    encode front bases digits < (front + 1) * bases.prod := by
  induction h generalizing front with
  | nil => simp [encode]
  | @cons digit base digits bases hlt _ ih =>
      rw [encode, List.prod_cons, ← mul_assoc]
      refine ih.trans_le (Nat.mul_le_mul_right _ ?_)
      rw [add_mul]
      omega

theorem encode_front (h : Within digits bases) :
    encode front bases digits = front * bases.prod + encode 0 bases digits := by
  induction h generalizing front with
  | nil => simp [encode]
  | @cons digit base digits bases _ _ ih =>
      rw [encode, encode, ih, @ih (0 * base + digit), List.prod_cons]
      ring

theorem decode_encode (h : Within digits bases) :
    decode bases (encode 0 bases digits) = digits := by
  induction h with
  | nil => rfl
  | @cons digit base digits bases hlt htail ih =>
      have hsmall := @encode_lt _ _ 0 htail
      rw [zero_add, one_mul] at hsmall
      have hpos : 0 < bases.prod := Nat.zero_lt_of_lt hsmall
      rw [encode, encode_front htail, zero_mul, zero_add, decode, Nat.mul_comm digit,
        Nat.mul_add_div hpos, Nat.div_eq_of_lt hsmall, Nat.mul_add_mod, Nat.mod_eq_of_lt hsmall,
        ih, add_zero]

end MixedRadix
