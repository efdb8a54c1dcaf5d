import Concierge.Http.Request
import Concierge.Proofs.Url.Joining
import Mathlib.Algebra.Order.BigOperators.Group.List
import Mathlib.Data.List.Basic
import Mathlib.Data.Nat.Digits.Defs
import Mathlib.Data.String.Basic

/-!
# Addresses that requests can name

A request names an address only up to a length.  The written form of an address is as long as its parts
together: what a path below it or a query adds is known from these alone.  So an address with some room
left can be named with everything behind it that fits, and with a value in its query that is longer than
an address may be it cannot be named.
-/

namespace Concierge

/-! ## How long forms are -/

namespace Form

/-- Pieces of which none is empty are together at least as long as there are many. -/
theorem length_le_flatMap {α β : Type} {f : α → List β} (h : ∀ x, f x ≠ []) (xs : List α) :
    xs.length ≤ (xs.flatMap f).length := by
  rw [List.length_flatMap, ← List.length_map (fun x => (f x).length)]
  refine List.length_le_sum_of_one_le _ fun n hn => ?_
  obtain ⟨x, -, rfl⟩ := List.mem_map.1 hn
  exact List.length_pos_iff.2 (h x)

theorem encodeOctet_ne_nil (b : UInt8) : encodeOctet b ≠ [] := by
  unfold encodeOctet
  split
  · exact List.cons_ne_nil _ _
  · split <;> exact List.cons_ne_nil _ _

theorem length_le_encodeText (s : String) : s.length ≤ (encodeText s).length := by
  have hencoded (c : Char) : String.utf8EncodeChar c ≠ [] := by
    rw [← List.length_pos_iff, String.length_utf8EncodeChar]
    exact c.utf8Size_pos
  rw [← String.length_toList]
  exact (length_le_flatMap hencoded _).trans (length_le_flatMap encodeOctet_ne_nil _)

theorem sublist_intercalate {α : Type} {xs sep : List α} {xss : List (List α)} (h : xs ∈ xss) :
    xs.Sublist (sep.intercalate xss) := by
  induction xss with
  | nil => cases h
  | cons first others ih =>
    cases others with
    | nil => simp [List.mem_singleton.1 h]
    | cons second more =>
      rw [List.intercalate_cons_cons]
      obtain rfl | hmem := List.mem_cons.1 h
      · exact (List.sublist_append_left _ _).trans (List.sublist_append_left _ _)
      · exact (ih hmem).trans (List.sublist_append_right _ _)

/-- A value is no longer than a form that it is in. -/
theorem length_le_encode {pairs : List (String × String)} {pair : String × String}
    (h : pair ∈ pairs) : pair.2.length ≤ (encode pairs).length := by
  have hvalue : (encodeText pair.2).Sublist (encodePair pair) :=
    (List.sublist_cons_self _ _).trans (List.sublist_append_right _ _)
  exact (length_le_encodeText _).trans
    (hvalue.trans (sublist_intercalate (List.mem_map_of_mem h))).length_le

end Form

/-! ## How long addresses are -/

namespace Url

/-- Pairs in the query of an address without one come behind it with a mark. -/
theorem size_withPairs {u : Url} (h : u.query = none) (pairs : List (String × String)) :
    (u.withPairs pairs).toText.utf8ByteSize =
      u.toText.utf8ByteSize + 1 + (String.ofList (Form.encode pairs)).utf8ByteSize := by
  simp only [toText, toTextWithoutFragment, withPairs, h, String.utf8ByteSize_append]
  have hmark : "?".utf8ByteSize = 1 := by decide
  rw [hmark, String.utf8ByteSize_empty]
  omega

theorem length_le_size (cs : List Char) : cs.length ≤ (String.ofList cs).utf8ByteSize := by
  rw [String.utf8ByteSize_ofList]
  induction cs with
  | nil => exact Nat.zero_le _
  | cons c cs ih =>
    rw [String.utf8Len_cons, List.length_cons]
    exact Nat.add_le_add ih c.utf8Size_pos

/-- An address is longer than every value in its query. -/
theorem length_le_size_withPairs (u : Url) {pairs : List (String × String)} {pair : String × String}
    (h : pair ∈ pairs) : pair.2.length ≤ (u.withPairs pairs).toText.utf8ByteSize := by
  have hadded := (Form.length_le_encode h).trans (length_le_size _)
  simp only [toText, toTextWithoutFragment, withPairs, String.utf8ByteSize_append]
  cases u.query with
  | none =>
    simp only
    omega
  | some q =>
    simp only
    split
    · omega
    · rw [String.utf8ByteSize_append]
      omega

theorem size_le_length {cs : List Char} (h : ∀ c ∈ cs, c.utf8Size = 1) :
    (String.ofList cs).utf8ByteSize ≤ cs.length := by
  rw [String.utf8ByteSize_ofList]
  induction cs with
  | nil => exact Nat.zero_le _
  | cons c cs ih =>
    obtain ⟨hc, hcs⟩ := List.forall_mem_cons.1 h
    rw [String.utf8Len_cons, List.length_cons, hc]
    exact Nat.add_le_add_right (ih hcs) 1

/-- Numbers are written with one character for each digit. -/
theorem size_toString_le {n k : Nat} (hk : 0 < k) (h : n < 10 ^ k) :
    (toString n).utf8ByteSize ≤ k := by
  rw [Nat.toString_eq_ofList_toDigits]
  refine (size_le_length fun c hc => ?_).trans (Nat.toDigits_length 10 n k hk h)
  have hdigit := Nat.isDigit_of_mem_toDigits (by decide) (by decide) hc
  have hnine := (Char.isDigit_iff_toNat.1 hdigit).2
  exact Char.utf8Size_eq_one_iff.2 (UInt32.le_iff_toNat_le.2 (hnine.trans (by decide)))

/-- What stands below the segments of an address makes it longer by no more than itself. -/
theorem size_below_le {u : Url} {name : Host} {port : Option Nat} {folder : List String} {k : Nat}
    (h : u.place = .hosted name port (folder ++ List.replicate k "")) (segs : List String) :
    ({ u with place := .hosted name port (folder ++ segs) } : Url).toText.utf8ByteSize ≤
      u.toText.utf8ByteSize + (pathText segs).utf8ByteSize := by
  simp only [toText, toTextWithoutFragment, h, Place.toText, pathText_append,
    String.utf8ByteSize_append]
  omega

end Url

/-! ## Room in an address -/

namespace Http

/-- Requests can name the host of an address, and the address with some more behind it. -/
structure HasRoom (u : Url) (spare : Nat) : Prop where
  host : (u.server?.any fun (host, _) => canNameHost host) = true
  length : u.toText.utf8ByteSize + spare ≤ longestAddress

/-- Requests are sent to the schemes of the web. -/
theorem mem_schemes_iff {scheme : String} : scheme ∈ Draft.schemes ↔ Url.IsWeb scheme := by
  simp [Draft.schemes, Url.IsWeb]

variable {u : Url} {name : Url.Host} {port : Option Nat} {folder segs : List String} {k : Nat}

theorem canName_iff : canName u = true ↔ HasRoom u 0 := by
  rw [canName, Bool.and_eq_true, decide_eq_true_iff]
  exact ⟨fun h => ⟨h.1, h.2⟩, fun h => ⟨h.host, h.length⟩⟩

/-- What fits into the room can be named. -/
theorem HasRoom.below {room spare : Nat} (h : HasRoom u room)
    (place : u.place = .hosted name port (folder ++ List.replicate k ""))
    (fits : (Url.pathText segs).utf8ByteSize + spare ≤ room) :
    HasRoom { u with place := .hosted name port (folder ++ segs) } spare := by
  refine ⟨?_, ?_⟩
  · have hhost := h.host
    rw [Url.server?, place] at hhost
    exact hhost
  · have hsize := Url.size_below_le place segs
    have hroom := h.length
    omega

theorem HasRoom.withPairs {room spare : Nat} {pairs : List (String × String)} (h : HasRoom u room)
    (query : u.query = none)
    (fits : (String.ofList (Form.encode pairs)).utf8ByteSize + 1 + spare ≤ room) :
    HasRoom (u.withPairs pairs) spare := by
  refine ⟨h.host, ?_⟩
  have hroom := h.length
  rw [Url.size_withPairs query]
  omega

/-- A value that is longer than an address may be is in no query. -/
theorem length_le_of_canName {pairs : List (String × String)} {pair : String × String}
    (h : canName (u.withPairs pairs) = true) (hpair : pair ∈ pairs) :
    pair.2.length ≤ longestAddress :=
  (Url.length_le_size_withPairs u hpair).trans (canName_iff.1 h).length

end Http

end Concierge
