import ApiOutline.Proofs.Decimal.Digits
import ApiOutline.Proofs.Files.Names
import Mathlib.Data.Finset.Card

/-!
# Drafts

Every number gives a draft a name of its own, and there is one number more than
there are entries. An entry takes at most one of these names, since names of one
length that begin the same place are the same name. So there is always a free
place for a draft (`exists_draftPlace`).

A draft's name is longer than the file's by fourteen bytes, as long as its number
has eight digits.
-/

namespace ApiOutline.Files

/-- The number in the name of a draft, with at least eight digits. -/
def draftNumber (n : Nat) : List Char :=
  List.replicate (8 - (Nat.toDigits 10 n).length) '0' ++ Nat.toDigits 10 n

theorem toList_pushn (s : String) (c : Char) (n : Nat) :
    (s.pushn c n).toList = s.toList ++ List.replicate n c := by
  induction n with
  | zero => simp [String.pushn, Nat.repeat]
  | succ n ih =>
      have hnext : s.pushn c (n + 1) = (s.pushn c n).push c := rfl
      rw [hnext, String.toList_push, ih, List.replicate_succ', List.append_assoc]

theorem draftName_eq (name : String) (n : Nat) :
    draftName name n = "." ++ name ++ "." ++ String.ofList (draftNumber n) ++ ".tmp" := by
  have hzeros (k : Nat) : "".pushn '0' k = String.ofList (List.replicate k '0') := by
    simp [← String.toList_inj, toList_pushn]
  rw [draftName, draftNumber, String.ofList_append]
  simp only [Decimal.natText, hzeros, String.length_ofList, String.append_assoc]

theorem draftNumber_inj {m n : Nat} (h : draftNumber m = draftNumber n) : m = n := by
  have hvalue (k : Nat) : Decimal.ofDigits 10 (draftNumber k) = k := by
    rw [draftNumber, Decimal.ofDigits_zeros, Decimal.ofDigits_toDigits (by decide) (by decide)]
  rw [← hvalue m, h, hvalue n]

theorem draftName_inj {name : String} {m n : Nat} (h : draftName name m = draftName name n) :
    m = n := by
  rw [draftName_eq, draftName_eq, ← String.toList_inj] at h
  simp only [String.toList_append, String.toList_ofList] at h
  exact draftNumber_inj (List.append_cancel_left (List.append_cancel_right h))

/-! ## Their size -/

theorem le_length_draftNumber (n : Nat) : 8 ≤ (draftNumber n).length := by
  rw [draftNumber, List.length_append, List.length_replicate]
  omega

theorem length_draftNumber {n : Nat} (h : n < 10 ^ 8) : (draftNumber n).length = 8 := by
  have hdigits : (Nat.toDigits 10 n).length ≤ 8 :=
    (Nat.length_toDigits_le_iff (by decide) (by decide)).2 h
  rw [draftNumber, List.length_append, List.length_replicate]
  omega

theorem nameSize_ofList {cs : List Char} (h : ∀ c ∈ cs, c.utf8Size = 1) :
    nameSize (String.ofList cs) = cs.length := by
  induction cs with
  | nil => rfl
  | cons c cs ih =>
      obtain ⟨hc, hcs⟩ := List.forall_mem_cons.1 h
      rw [nameSize_cons, hc, ih hcs, List.length_cons, Nat.add_comm]

theorem utf8Size_of_isDigit {c : Char} (h : c.isDigit = true) : c.utf8Size = 1 := by
  have hrange : 48 ≤ c.val ∧ c.val ≤ 57 := by simpa [Char.isDigit] using h
  have hle : c.val ≤ 127 := UInt32.le_trans hrange.2 (by decide)
  unfold Char.utf8Size
  exact if_pos hle

theorem nameSize_draftName (name : String) (n : Nat) :
    nameSize (draftName name n) = nameSize name + 6 + (draftNumber n).length := by
  have hdigits : nameSize (String.ofList (draftNumber n)) = (draftNumber n).length := by
    refine nameSize_ofList fun c hc => ?_
    rcases List.mem_append.1 hc with hzero | hdigit
    · rw [List.eq_of_mem_replicate hzero]
      rfl
    · exact utf8Size_of_isDigit (Nat.isDigit_of_mem_toDigits (by decide) (by decide) hdigit)
  have hdot : ".".utf8ByteSize = 1 := rfl
  have hend : ".tmp".utf8ByteSize = 4 := rfl
  rw [draftName_eq]
  simp only [nameSize, String.utf8ByteSize_append] at hdigits ⊢
  omega

/-! ## Their places -/

/-- There is always a free place for a draft. -/
theorem exists_draftPlace (fs : Files) (directory : Place) (name : String) :
    ∃ n ≤ fs.entries.length, fs.isFree (directory ++ [draftName name n]) = true ∧
      fs.draftPlace? directory name = some (directory ++ [draftName name n]) := by
  cases hfind : fs.draftPlace? directory name with
  | some draft =>
      obtain ⟨n, hn, rfl⟩ := List.mem_map.1 (List.mem_of_find?_eq_some hfind)
      exact ⟨n, Nat.le_of_lt_succ (List.mem_range.1 hn), List.find?_some hfind, rfl⟩
  | none =>
      exfalso
      have htaken : ∀ n ∈ Finset.range (fs.entries.length + 1),
          ∃ x ∈ fs.entries.toFinset, directory ++ [draftName name n] <+: x.1 := by
        intro n hn
        have hfree := List.find?_eq_none.1 hfind _
          (List.mem_map_of_mem (List.mem_range.2 (Finset.mem_range.1 hn)))
        rw [Bool.not_eq_true, isFree, List.all_eq_false] at hfree
        obtain ⟨x, hx, hbegins⟩ := hfree
        refine ⟨x, List.mem_toFinset.2 hx, List.isPrefixOf_iff_prefix.1 ?_⟩
        simpa using hbegins
      have : Nonempty Entry := ⟨.directory⟩
      choose! taker htaker hbegins using htaken
      have hfewer : fs.entries.toFinset.card < (Finset.range (fs.entries.length + 1)).card := by
        rw [Finset.card_range]
        exact Nat.lt_succ_of_le fs.entries.toFinset_card_le
      obtain ⟨m, hm, n, hn, hne, heq⟩ :=
        Finset.exists_ne_map_eq_of_card_lt_of_maps_to hfewer htaker
      -- both names stand at the same depth of one place
      have hboth := List.prefix_of_prefix_length_le (hbegins m hm) (heq ▸ hbegins n hn) (by simp)
      have hnames := List.append_cancel_left (hboth.eq_of_length (by simp))
      exact hne (draftName_inj (List.singleton_inj.1 hnames))

end ApiOutline.Files
