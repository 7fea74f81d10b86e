/-
Octets as text.

Displays show octets in lower-case hexadecimal, two digits each: run together
(`cafe`) or as a bracketed list (`[ca, fe]`). Either text tells the octets
(`hex_inj`, `hexList_inj`), so two tokens or two extensions that are shown alike
hold the same data.
-/
import DatagramHello.Wire.Bytes

set_option autoImplicit false

namespace DatagramHello.Bytes

/-- The two digits of an octet. -/
def octetDigits (b : UInt8) : List Char :=
  [Nat.digitChar (b.toNat / 16), Nat.digitChar (b.toNat % 16)]

/-- The octets run together. -/
def hex (bs : Bytes) : String :=
  String.ofList (bs.flatMap octetDigits)

/-- The octets as a bracketed list. -/
def hexList (bs : Bytes) : String :=
  "[" ++ ", ".intercalate (bs.map fun b => String.ofList (octetDigits b)) ++ "]"

/-! ## The text tells the octets

An octet is its two digits, and with two digits an octet the separators stand at
the same places in all texts of one length. -/

/-- The sixteen digits are different. -/
theorem digitChar_inj {m n : Nat} (hm : m < 16) (hn : n < 16)
    (h : Nat.digitChar m = Nat.digitChar n) : m = n := by
  have hall : ∀ i j : Fin 16, Nat.digitChar i.val = Nat.digitChar j.val → i = j := by decide
  exact congrArg Fin.val (hall ⟨m, hm⟩ ⟨n, hn⟩ h)

/-- An octet is its two digits, sixteens and ones. -/
theorem octetDigits_inj {a b : UInt8} : octetDigits a = octetDigits b ↔ a = b := by
  constructor
  · intro h
    obtain ⟨hhigh, hlow⟩ : Nat.digitChar (a.toNat / 16) = Nat.digitChar (b.toNat / 16)
        ∧ Nat.digitChar (a.toNat % 16) = Nat.digitChar (b.toNat % 16) := by
      simpa [octetDigits] using h
    have ha := a.toNat_lt
    have hb := b.toNat_lt
    have hsixteens := digitChar_inj (by omega) (by omega) hhigh
    have hones := digitChar_inj (by omega) (by omega) hlow
    apply UInt8.toNat_inj.mp
    omega
  · rintro rfl
    rfl

/-- **The digits tell the octets.** -/
theorem hex_inj {bs cs : Bytes} : hex bs = hex cs ↔ bs = cs := by
  constructor
  · intro h
    have hdigits : bs.flatMap octetDigits = cs.flatMap octetDigits := String.ofList_inj.mp h
    -- on the octets, two digits of either text at a time
    induction bs generalizing cs with
    | nil =>
      cases cs with
      | nil => rfl
      | cons c cs => contradiction
    | cons b bs ih =>
      cases cs with
      | nil => contradiction
      | cons c cs =>
        rw [List.flatMap_cons, List.flatMap_cons] at hdigits
        obtain ⟨hfirst, hothers⟩ := List.append_inj hdigits rfl
        have hrest : hex bs = hex cs := congrArg String.ofList hothers
        rw [octetDigits_inj.mp hfirst, ih hrest hothers]
  · rintro rfl
    rfl

example : hex [0xca, 0xfe, 0x05] = "cafe05" := by decide

/-- What stands between the brackets. -/
def joinedDigits (bs : Bytes) : List Char := [',', ' '].intercalate (bs.map octetDigits)

/-- In front of a separator stand two digits, and behind it the text of the other octets. -/
theorem joinedDigits_cons_cons (a b : UInt8) (bs : Bytes) :
    joinedDigits (a :: b :: bs) = octetDigits a ++ [',', ' '] ++ joinedDigits (b :: bs) :=
  List.intercalate_cons_cons

/-- Two digits an octet, and two characters between one octet and the next. -/
theorem length_joinedDigits (bs : Bytes) : (joinedDigits bs).length = 4 * bs.length - 2 := by
  induction bs with
  | nil => rfl
  | cons a bs ih =>
    cases bs with
    | nil => rfl
    | cons b bs =>
      have hdigits : (octetDigits a).length = 2 := rfl
      rw [joinedDigits_cons_cons, List.length_append, List.length_append, ih, hdigits]
      simp only [List.length_cons, List.length_nil]
      omega

/-- Of as many octets the texts are different unless the octets are the same. -/
theorem eq_of_joinedDigits_eq {bs cs : Bytes} (hcount : bs.length = cs.length)
    (h : joinedDigits bs = joinedDigits cs) : bs = cs := by
  induction bs generalizing cs with
  | nil => exact (List.eq_nil_of_length_eq_zero hcount.symm).symm
  | cons b bs ih =>
    obtain ⟨c, cs, rfl⟩ := List.exists_cons_of_length_eq_add_one hcount.symm
    have hrest : bs.length = cs.length := Nat.succ.inj hcount
    cases bs with
    | nil =>
      have hnil : cs = [] := List.eq_nil_of_length_eq_zero hrest.symm
      subst hnil
      have hdigits : octetDigits b = octetDigits c := h
      rw [octetDigits_inj.mp hdigits]
    | cons b' bs =>
      obtain ⟨c', cs, rfl⟩ := List.exists_cons_of_length_eq_add_one hrest.symm
      rw [joinedDigits_cons_cons, joinedDigits_cons_cons] at h
      -- the first octet and its separator have four characters in both texts
      obtain ⟨hfirst, hothers⟩ := List.append_inj h rfl
      have hdigits : octetDigits b = octetDigits c := List.append_cancel_right hfirst
      rw [octetDigits_inj.mp hdigits, ih hrest hothers]

/-- The characters of the bracketed list. -/
theorem toList_hexList (bs : Bytes) :
    (hexList bs).toList = ['['] ++ joinedDigits bs ++ [']'] := by
  have hparts : (bs.map fun b => String.ofList (octetDigits b)).map String.toList
      = bs.map octetDigits := by
    rw [List.map_map]
    simp only [Function.comp_def, String.toList_ofList]
  simp only [hexList, joinedDigits, String.toList_append, String.toList_intercalate, hparts]
  rfl

/-- **The text tells the octets.** -/
theorem hexList_inj {bs cs : Bytes} : hexList bs = hexList cs ↔ bs = cs := by
  constructor
  · intro h
    have htext := congrArg String.toList h
    rw [toList_hexList, toList_hexList] at htext
    have hopened : ['['] ++ joinedDigits bs = ['['] ++ joinedDigits cs :=
      List.append_cancel_right htext
    have hjoined : joinedDigits bs = joinedDigits cs := List.append_cancel_left hopened
    have hlength := congrArg List.length hjoined
    rw [length_joinedDigits, length_joinedDigits] at hlength
    have hcount : bs.length = cs.length := by
      -- the lengths are 0, 2, 6, 10 and so on, no two of them the same
      omega
    exact eq_of_joinedDigits_eq hcount hjoined
  · rintro rfl
    rfl

example : hexList [0xca, 0xfe] = "[ca, fe]" := by decide

end DatagramHello.Bytes
