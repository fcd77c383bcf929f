import WaveNotebook.Document.Tree
import WaveNotebook.Proofs.Document.Number
import WaveNotebook.Proofs.Document.Quoted

/-!
# Scalars that are written and read

The settings are truth values, integers that are not negative, finite numbers above zero and texts.
What is written for one of them is a plain scalar or one between quotes, from which the reader takes
the same datum again, whatever the layout and the column are.
-/

namespace WaveNotebook.Document

open Text

/-! ## What is read from a scalar -/

/-- The text of a scalar and its style, for a datum without parts. -/
def contentOf : Datum → List Char × ScalarStyle
  | .text s => (s.toList, if isPlain s.toList then .plain else .marked)
  | d => (write layout 0 d, .plain)

/-- What is written for a scalar with a text and a style. Lines that continue it have an
indentation. -/
inductive WrittenScalar (indent : ℕ) : List Char → List Char × ScalarStyle → Prop
  | plain {c w s} (hstart : Lexer.startsPlain true c s.head? = true)
    (h : PlainText indent (c :: w) (c :: s)) : WrittenScalar indent (c :: w) (c :: s, .plain)
  | quoted {q w s} (hq : IsQuote q) (h : QuotedText q w s) :
    WrittenScalar indent (q :: (w ++ [q])) (s, .marked)

/-- The form by which the datum of a scalar is found. -/
def scalarForm (s : List Char × ScalarStyle) : ScalarForm :=
  if s.2 = .plain then formOf s.1 else .text

/-- A scalar stands for a datum. -/
def StandsFor (s : List Char × ScalarStyle) (d : Datum) : Prop :=
  Node.scalarDatum? (scalarForm s).tag s.1 = some (.ok d)

variable {indent : ℕ} {w s : List Char}

theorem WrittenScalar.isDocument {v : List Char × ScalarStyle} (h : WrittenScalar indent w v) :
    IsDocument w := by
  cases h with
  | plain _ h => exact h.isDocument
  | quoted hq h =>
    have hquote : ∀ {q}, IsQuote q → isSimple q = true := by
      rintro _ (rfl | rfl) <;> rfl
    refine isDocument_cons_iff.mpr ⟨.inl (hquote hq), isDocument_append_iff.mpr ⟨h.isDocument, ?_⟩⟩
    exact isDocument_cons_iff.mpr ⟨.inl (hquote hq), isDocument_nil⟩

/-! ## Plain scalars -/

/-- Visible characters without a colon go on as they are. -/
theorem plainText_self (hs : ∀ c ∈ s, isSimple c = true ∧ c ≠ ' ' ∧ c ≠ ':') :
    PlainText indent s s := by
  induction s with
  | nil => exact .nil
  | cons c s ih =>
    obtain ⟨⟨hsimple, hspace, hcolon⟩, hs⟩ := List.forall_mem_cons.mp hs
    exact .char hsimple hspace (fun h ↦ absurd h hcolon) (ih hs)

theorem ne_of_mem_numberChars {c : Char} (h : c ∈ numberChars) : c ≠ ' ' ∧ c ≠ ':' := by
  constructor <;> rintro rfl <;> exact absurd h (by decide)

theorem startsPlain_of_digit {c : Char} (h : c ∈ latinDigits) (next : Option Char) :
    Lexer.startsPlain true c next = true := by
  have key : latinDigits.all (fun c ↦
      !(isGap c || "-?:,[]\x7b\x7d#&*!|>'\"%@\x60".toList.contains c)) = true := by
    decide
  unfold Lexer.startsPlain
  rw [List.all_eq_true.mp key c h, Bool.true_or]

/-- A word made of the characters of numbers, of which the first one is a digit. -/
theorem writtenScalar_number {c : Char} {r : List Char} (hc : c ∈ latinDigits)
    (h : c :: r ⊆ numberChars) : WrittenScalar indent (c :: r) (c :: r, .plain) := by
  refine .plain (startsPlain_of_digit hc _) (plainText_self fun x hx ↦ ?_)
  exact ⟨(of_mem_numberChars (h hx)).2.2.2, ne_of_mem_numberChars (h hx)⟩

theorem writtenScalar_bool (b : Bool) :
    WrittenScalar indent (write layout 0 (.bool b)) (contentOf (.bool b)) := by
  have hword : ∀ s : List Char, s.all (fun c ↦ isSimple c && c != ' ' && c != ':') = true →
      PlainText indent s s := fun s hs ↦ plainText_self fun c hc ↦ by
    have hc := List.all_eq_true.mp hs c hc
    simp only [Bool.and_eq_true, bne_iff_ne] at hc
    exact ⟨hc.1.1, hc.1.2, hc.2⟩
  cases b
  · exact .plain (c := 'f') (s := ['a', 'l', 's', 'e']) rfl (hword _ rfl)
  · exact .plain (c := 't') (s := ['r', 'u', 'e']) rfl (hword _ rfl)

theorem writtenScalar_plainText {l : Layout} (h : isPlain s = true) (column : ℕ) :
    WrittenScalar l.indent (foldedText l false column none s) (s, .plain) := by
  cases s with
  | nil => exact nomatch h
  | cons c s =>
    simp only [isPlain, Bool.and_eq_true, bne_iff_ne, List.all_eq_true] at h
    obtain ⟨⟨⟨⟨⟨⟨⟨hsimple, hspace⟩, hlast⟩, -⟩, -⟩, hstart⟩, hcontinues⟩, -⟩ := h
    have hc := hsimple c List.mem_cons_self
    -- the first character is neither a sign of a comment nor a colon in front of a gap
    have hfirst : continuesPlain c (c :: s) = true := by
      have hsign : (c == '#' && isGap c) = false := by
        rw [isGap_of_isSimple hc hspace, Bool.and_false]
      have hcolon : (c == ':' && endsOr isGap s.head?) = false := by
        by_cases hc : c = ':'
        · subst hc
          cases hends : endsOr isGap s.head? with
          | false => rfl
          | true =>
            rw [Lexer.startsPlain, hends] at hstart
            exact absurd hstart (by decide)
        · rw [beq_false_of_ne hc, Bool.false_and]
      rw [continuesPlain, hsign, hcolon, hcontinues]
      rfl
    have htext := plainText_foldedText (l := l) hsimple hlast hfirst column none
    rw [foldedText_visible _ _ hc hspace] at htext ⊢
    exact .plain hstart htext

/-! ## Data of a block of settings -/

/-- The data that settings consist of, in a range in which they can be written and read. -/
inductive Writable : Datum → Prop
  | bool (b : Bool) : Writable (.bool b)
  | integer {n : ℕ} (h : n < Nat.pow 10 Datum.mostDigits) : Writable (.integer n)
  | number {x : Float} (hfinite : Binary64.isFinite x = true) (hpos : 0.0 < x) :
    Writable (.number x)
  | text (s : String) : Writable (.text s)

theorem integerText_natCast (n : ℕ) : integerText n = digitsOf n := by
  have hsign : decide ((n : ℤ) < 0) = false := decide_eq_false (by omega)
  unfold integerText
  rw [hsign]
  rfl

/-- What is written for a datum is a scalar with its content. -/
theorem Writable.writtenScalar {d : Datum} (h : Writable d) {l : Layout} (hindent : l.indent ≠ 0)
    (hwidth : l.indent < l.width) (column : ℕ) :
    WrittenScalar l.indent (write l column d) (contentOf d) := by
  cases h with
  | bool b => exact writtenScalar_bool b
  | @integer n _ =>
    obtain ⟨c, r, hdigits⟩ := List.exists_cons_of_ne_nil (digits_digitsOf n).1
    have hsubset := digitsOf_subset n
    change WrittenScalar l.indent (integerText n) (integerText n, .plain)
    rw [integerText_natCast, hdigits]
    rw [hdigits] at hsubset
    exact writtenScalar_number (List.cons_subset.mp hsubset).1
      (List.Subset.trans hsubset latinDigits_subset)
  | @number x hfinite hpos =>
    have hpointed := (pointedText_writeNumber hfinite hpos).1
    obtain ⟨c, r, hnumber, hc⟩ := hpointed.exists_digit
    change WrittenScalar l.indent (writeNumber x) (writeNumber x, .plain)
    rw [hnumber] at hpointed ⊢
    exact writtenScalar_number hc hpointed.subset
  | text s =>
    change WrittenScalar l.indent (writeText l column s.toList)
      (s.toList, if isPlain s.toList then .plain else .marked)
    unfold writeText
    split
    · rename_i hplain
      exact writtenScalar_plainText hplain column
    · split
      · rename_i hsingle
        exact .quoted (.inl rfl)
          (quotedText_foldedText hindent (holdable_of_isSingle hsingle) _ fun _ ↦ nofun)
      · exact .quoted (.inr rfl) (quotedText_escapedText hindent hwidth _)

theorem formOf_of_isPlain (h : isPlain s = true) : formOf s = .text := by
  cases s with
  | nil => exact nomatch h
  | cons c s =>
    simp only [isPlain, Bool.and_eq_true, isReserved, Bool.not_eq_true', bne_eq_false_iff_eq] at h
    exact h.2

theorem scalarForm_text (s : String) : scalarForm (contentOf (.text s)) = .text := by
  unfold scalarForm contentOf
  dsimp only
  split
  · exact formOf_of_isPlain ‹_›
  · rfl

/-- The content of a datum stands for it. -/
theorem Writable.standsFor {d : Datum} (h : Writable d) : StandsFor (contentOf d) d := by
  unfold StandsFor
  cases h with
  | bool b =>
    -- the form of either word is that of a truth value
    have hform : scalarForm (contentOf (.bool b)) = .truth := by
      cases b <;> decide +kernel
    rw [hform]
    cases b <;> rfl
  | @integer n h =>
    change Node.scalarDatum? (formOf (integerText n)).tag (integerText n) = _
    rw [integerText_natCast, formOf_digitsOf]
    change some ((integerOf (digitsOf n)).map Datum.integer) = _
    rw [integerOf_digitsOf h]
    rfl
  | @number x hfinite hpos =>
    obtain ⟨hpointed, hvalue⟩ := pointedText_writeNumber hfinite hpos
    change Node.scalarDatum? (formOf (writeNumber x)).tag (writeNumber x) = _
    rw [hpointed.formOf_eq]
    change some ((numberOf (writeNumber x)).map Datum.number) = _
    rw [numberOf_pointed hpointed hvalue]
    rfl
  | text s =>
    rw [scalarForm_text]
    change some (Except.ok (Datum.text (String.ofList s.toList))) = _
    rw [String.ofList_toList]

end WaveNotebook.Document
