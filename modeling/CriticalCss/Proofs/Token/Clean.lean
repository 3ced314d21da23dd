import CriticalCss.Proofs.Token.Skipping
import CriticalCss.Token.Component

/-!
# Tokens of texts without escapes

A text without backslashes has no escapes, and one without apostrophes has no strings in single
quotes.  The names in such a text can be written as they are, and the strings can be written as they
are between double quotes.

* `Token.IsPlain` says that the name or the string of a token needs no escapes.
* `isPlain_of_scan` is one token of a clean text, and `isPlain_of_mem_ofText` the tree of components
  of a whole one.
-/

namespace CriticalCss

namespace Token

/-! ## Names and strings without escapes -/

/-- A text without backslashes and apostrophes. -/
def IsClean (cs : List Char) : Prop :=
  '\\' ∉ cs ∧ '\'' ∉ cs

theorem IsClean.of_suffix {cs rest : List Char} (h : IsClean cs) (hrest : rest <:+ cs) :
    IsClean rest :=
  ⟨fun hmem => h.1 (hrest.subset hmem), fun hmem => h.2 (hrest.subset hmem)⟩

/-- The text can be written between double quotes as it is. -/
def IsQuotable (v : List Char) : Prop :=
  ∀ c ∈ v, c ≠ '"' ∧ c ≠ '\\' ∧ isNewline c = false ∧ c.toNat ≠ 0

theorem visible_of_ne {c : Char} (h : c.toNat ≠ 0) : visible c = c := by
  rw [visible, if_neg h]

theorem toNat_visible_ne (c : Char) : (visible c).toNat ≠ 0 := by
  unfold visible
  split
  · decide
  · assumption

theorem isNameChar_visible {c : Char} (h : isNameChar c = true) :
    isNameChar (visible c) = true := by
  unfold visible
  split
  · decide
  · exact h

theorem isNameStart_visible {c : Char} (h : isNameStart c = true) :
    isNameStart (visible c) = true := by
  unfold visible
  split
  · decide
  · exact h

/-- The characters that are read of a name without escapes. -/
theorem isNameChar_of_mem_takeName {cs : List Char} (h : '\\' ∉ cs) :
    ∀ c ∈ (takeName cs).1, isNameChar c = true ∧ c.toNat ≠ 0 := by
  induction cs using takeName_induction with
  | nil =>
    rw [takeName_nil]
    exact List.forall_mem_nil _
  | char c cs hc ih =>
    rw [takeName_cons hc]
    have htail := ih fun hmem => h (List.mem_cons_of_mem _ hmem)
    exact List.forall_mem_cons.2 ⟨⟨isNameChar_visible hc, toNat_visible_ne c⟩, htail⟩
  | escape cs hline ih => exact absurd List.mem_cons_self h
  | stop c cs hc hback =>
    rw [takeName_stop hc hback]
    exact List.forall_mem_nil _

/-- Where a name begins, the name that is read needs no escapes. -/
theorem isName_takeName {cs : List Char} (hstart : startsName cs = true) (h : '\\' ∉ cs) :
    isName (takeName cs).1 = true := by
  have hchars := isNameChar_of_mem_takeName h
  rw [isName, Bool.and_eq_true, List.all_eq_true]
  refine ⟨?_, fun c hc => by simpa using hchars c hc⟩
  clear hchars
  unfold startsName at hstart
  split at hstart
  · cases hstart
  · next c rest =>
    have hc : isNameStart c = true ∨ c = '-' := by
      have hback : c ≠ '\\' := fun heq => h (by simp [heq])
      simpa [hback] using hstart
    rcases hc with hc | rfl
    · have hname : isNameChar c = true := by simp [isNameChar, hc]
      rw [takeName_cons rfl, takeName_cons hname, visible_of_ne (by decide)]
      simp [startsName, isNameStart_visible hc]
    · rw [takeName_cons rfl, takeName_cons rfl, visible_of_ne (by decide)]
      rfl
  · exact absurd List.mem_cons_self h
  · next c rest _ _ =>
    have hname : isNameChar c = true := by simp [isNameChar, hstart]
    rw [takeName_cons hname]
    exact startsName_of_isNameStart (isNameStart_visible hstart) _

/-- The value of a string in double quotes without escapes. -/
theorem isQuotable_takeString {cs : List Char} (h : '\\' ∉ cs) :
    IsQuotable (takeString '"' cs).1 := by
  induction cs using takeString_induction '"' with
  | nil =>
    rw [takeString_nil]
    exact List.forall_mem_nil _
  | close cs =>
    rw [takeString_quote]
    exact List.forall_mem_nil _
  | newline c cs hquote hline =>
    rw [takeString_newline hquote hline]
    exact List.forall_mem_nil _
  | backslash => exact absurd List.mem_cons_self h
  | continued => exact absurd List.mem_cons_self h
  | escape => exact absurd List.mem_cons_self h
  | char c cs hquote hline hback ih =>
    rw [takeString_char hquote hline hback]
    refine List.forall_mem_cons.2 ⟨?_, ih fun hmem => h (List.mem_cons_of_mem _ hmem)⟩
    unfold visible
    split
    · decide
    · next hzero => exact ⟨hquote, hback, hline, hzero⟩

/-! ## Tokens and components -/

/-- What a token holds needs no escapes, and a number without a sign is not negative. -/
def IsPlain : Token → Prop
  | .ident name | .function name | .idHash name => isName name.toList = true
  | .string value => IsQuotable value.toList
  | .number n => n.signed = false → n.negative = false
  | _ => True

/-- Where no sign stands, the number is not negative. -/
theorem negative_takeNumeral (cs : List Char) (h : (takeNumeral cs).1.signed = false) :
    (takeNumeral cs).1.negative = false := by
  have hsign : (takeSign cs).1 = false → (takeSign cs).2.1 = false := by
    unfold takeSign
    split
    · exact fun _ => rfl
    · exact nofun
    · exact fun _ => rfl
  exact hsign h

/-- The tokens of a clean text need no escapes. -/
theorem isPlain_of_scan {cs rest : List Char} {token : Token}
    (h : scan cs = some (token, rest)) (hcs : IsClean cs) : token.IsPlain := by
  have hname {cs name rest : List Char} (starts : startsName cs = true)
      (taken : takeName cs = (name, rest)) (hback : '\\' ∉ cs) :
      isName (String.ofList name).toList = true := by
    have hisName := isName_takeName starts hback
    rwa [taken, ← String.toList_ofList (l := name)] at hisName
  have htail {c : Char} {cs : List Char} (hcs : IsClean (c :: cs)) : '\\' ∉ cs :=
    fun hmem => hcs.1 (List.mem_cons_of_mem _ hmem)
  cases scanned_of_scan h with
  | string quotes taken =>
    obtain rfl := quotes.resolve_right fun heq => hcs.2 (heq ▸ List.mem_cons_self)
    have hvalue := isQuotable_takeString (htail hcs)
    rw [taken] at hvalue
    rwa [IsPlain, String.toList_ofList]
  | idHash starts taken => exact hname starts taken (htail hcs)
  | number starts taken =>
    have hsign := negative_takeNumeral cs
    rwa [taken] at hsign
  | mark mem text =>
    have hmarks : ∀ m ∈ marks, m.2.IsPlain := by simp [marks, IsPlain]
    exact hmarks _ mem
  | ident starts taken => exact hname starts taken hcs.1
  | function starts taken => exact hname starts taken hcs.1
  | _ => exact trivial

theorem isPlain_of_mem_scanAll {cs : List Char} (hcs : IsClean cs) :
    ∀ t ∈ scanAll cs, t.IsPlain := by
  induction cs using scan_induction with
  | nil =>
    rw [scanAll_nil]
    exact List.forall_mem_nil _
  | token cs t rest hscan ih =>
    have hrest := ih rest (Nat.le_refl _) (hcs.of_suffix (scan_suffix hscan))
    rw [scanAll_of_scan hscan]
    exact List.forall_mem_cons.2 ⟨isPlain_of_scan hscan hcs, hrest⟩

end Token

/-- A component tree of tokens that need no escapes. -/
inductive Component.IsPlain : Component → Prop where
  | token {t : Token} (plain : t.IsPlain) : IsPlain (.token t)
  | block {opening : Token} {content : List Component} (plain : opening.IsPlain)
    (inside : ∀ c ∈ content, IsPlain c) : IsPlain (.block opening content)

/-- All that has been read of a tree is plain. -/
structure Nesting.IsPlain (n : Nesting) : Prop where
  inner : ∀ c ∈ n.inner, c.IsPlain
  outer : ∀ b ∈ n.outer, b.1.IsPlain ∧ ∀ c ∈ b.2, c.IsPlain

namespace Nesting

variable {n : Nesting} {t : Token}

theorem IsPlain.push (h : n.IsPlain) (ht : t.IsPlain) : (n.push t).IsPlain where
  inner c hc := by
    rcases List.mem_cons.1 hc with rfl | hc
    · exact .token ht
    · exact h.inner c hc
  outer := h.outer

theorem IsPlain.add (h : n.IsPlain) (ht : t.IsPlain) : (n.add t).IsPlain := by
  unfold Nesting.add
  split
  · exact h
  split
  · refine ⟨nofun, fun b hb => ?_⟩
    rcases List.mem_cons.1 hb with rfl | hb
    · exact ⟨ht, h.inner⟩
    · exact h.outer b hb
  split
  · next opening before outer houter =>
    have hblock := h.outer
    rw [houter] at hblock
    obtain ⟨hopening, hbefore⟩ := hblock _ List.mem_cons_self
    split
    · refine ⟨fun c hc => ?_, fun b hb => hblock b (List.mem_cons_of_mem _ hb)⟩
      rcases List.mem_cons.1 hc with rfl | hc
      · exact .block hopening fun c hc => h.inner c (List.mem_reverse.1 hc)
      · exact hbefore c hc
    · exact h.push ht
  · exact h.push ht

theorem isPlain_closeAll {inner : List Component} {outer : List (Token × List Component)}
    (h : IsPlain ⟨inner, outer⟩) : ∀ c ∈ closeAll inner outer, c.IsPlain := by
  induction outer generalizing inner with
  | nil => exact fun c hc => h.inner c (List.mem_reverse.1 hc)
  | cons b outer ih =>
    obtain ⟨hopening, hbefore⟩ := h.outer b List.mem_cons_self
    refine ih ⟨fun c hc => ?_, fun b hb => h.outer b (List.mem_cons_of_mem _ hb)⟩
    rcases List.mem_cons.1 hc with rfl | hc
    · exact .block hopening fun c hc => h.inner c (List.mem_reverse.1 hc)
    · exact hbefore c hc

theorem isPlain_foldl_add {ts : List Token} (hts : ∀ t ∈ ts, t.IsPlain) (h : n.IsPlain) :
    (ts.foldl Nesting.add n).IsPlain := by
  induction ts generalizing n with
  | nil => exact h
  | cons t ts ih =>
    exact ih (fun t ht => hts t (List.mem_cons_of_mem _ ht)) (h.add (hts t List.mem_cons_self))

end Nesting

/-- The components of a clean text need no escapes. -/
theorem Component.isPlain_of_mem_ofText {s : String} (hs : Token.IsClean s.toList) :
    ∀ c ∈ Component.ofText s, c.IsPlain :=
  Nesting.isPlain_closeAll
    (Nesting.isPlain_foldl_add (Token.isPlain_of_mem_scanAll hs) ⟨nofun, nofun⟩)

end CriticalCss
