import CriticalCss.Proofs.Stylesheet.Printable

/-!
# Reading blocks back

A printed block is white space, a header, a brace, declarations and a brace.  These lemmas read its
parts back, whatever white space stands between them, so that they hold for both layouts.

* `rawText_framed` and `passesOver_framed` are about the text before a brace or a semicolon.
* `HoldsDeclarations` says that some text in a block is read as the given declarations;
  `exists_block_of_printDeclarations` finds the block in what is printed.
* `nextStep_eq` reads one step of an animation.
-/

namespace CriticalCss

open Token (isCalm isSpace isName isBreak isStop skipUntil skipBlanks scan closeBlock between
  PassesOver ClosesOver)

/-- An indentation of spaces and tabs. -/
def PrintOptions.IsBlank (o : PrintOptions) : Prop :=
  ∀ c ∈ o.indent.toList, c = ' ' ∨ c = '\t'

instance (o : PrintOptions) : Decidable o.IsBlank :=
  List.decidableBAll _ o.indent.toList

namespace Stylesheet

/-! ## Texts between marks -/

theorem between_append (x rest : List Char) : between (x ++ rest) rest = x := by
  simp [between]

/-- A text is read without the white space around it. -/
theorem rawText_framed {w t w' : List Char} (hw : ∀ c ∈ w, isSpace c = true)
    (ht : Text.Trimmed t) (hw' : ∀ c ∈ w', isSpace c = true) (rest : List Char) :
    rawText (w ++ (t ++ (w' ++ rest))) rest = String.ofList t := by
  have hsplit : w ++ (t ++ (w' ++ rest)) = (w ++ (t ++ w')) ++ rest := by simp
  rw [rawText, hsplit, between_append]
  exact congrArg String.ofList (Text.trimChars_framed
    (fun c hc => Text.isBlank_of_isSpace (hw c hc)) ht
    (fun c hc => Text.isBlank_of_isSpace (hw' c hc)))

/-- Spaces are white space. -/
theorem isSpace_of_eq_space {w : List Char} (hw : ∀ c ∈ w, c = ' ') : ∀ c ∈ w, isSpace c = true :=
  fun c hc => by rw [hw c hc]; rfl

/-- Spaces and a break begin with a break. -/
theorem exists_break {w : List Char} (hw : ∀ c ∈ w, c = ' ') {b : Char} (hb : isBreak b = true)
    (more : List Char) : ∃ b' more', w ++ b :: more = b' :: more' ∧ isBreak b' = true := by
  cases w with
  | nil => exact ⟨b, more, rfl, hb⟩
  | cons c w => exact ⟨c, w ++ b :: more, rfl, by rw [hw c List.mem_cons_self]; decide⟩

/-- Going over a phrase with white space around it. -/
theorem passesOver_framed {w t w' : List Char} (hw : ∀ c ∈ w, isSpace c = true)
    (ht : Token.Calm 0 t) (hw' : ∀ c ∈ w', c = ' ') {b : Char} (hb : isBreak b = true)
    (more : List Char) : PassesOver (w ++ (t ++ w')) (b :: more) := by
  have hspace := isSpace_of_eq_space hw'
  obtain ⟨b', more', hnext, hb'⟩ := exists_break hw' hb more
  refine .append (Token.passesOver_spaces hw _) (.append ?_ (Token.passesOver_spaces hspace _))
  rw [hnext]
  exact Token.passesOver_calm ht hb' more'

/-! ## Declarations -/

/-- Passing white space and comments goes over white space. -/
theorem skipBlanks_append {w : List Char} (hw : ∀ c ∈ w, isSpace c = true) (rest : List Char) :
    skipBlanks (w ++ rest) = skipBlanks rest := by
  have hrun : ∀ c rest, isSpace c = true →
      skipBlanks (c :: rest) = skipBlanks (rest.dropWhile isSpace) := by
    intro c rest hc
    rw [skipBlanks, Token.scan_space hc]
  induction w with
  | nil => rfl
  | cons c w ih =>
    rw [List.cons_append, Token.eq_of_dropWhile_isSpace hrun (hw c List.mem_cons_self)]
    exact ih fun d hd => hw d (List.mem_cons_of_mem _ hd)

/-- Nothing is passed where neither white space nor a comment begins. -/
theorem skipBlanks_of_begins {c : Char} (hspace : isSpace c = false) (hslash : c ≠ '/')
    (cs : List Char) : skipBlanks (c :: cs) = c :: cs := by
  rw [skipBlanks]
  split
  · next text rest hscan =>
    have hbegins := Token.begins_of_scan hscan
    rw [show isSpace c = true from hbegins] at hspace
    cases hspace
  · next hscan => exact absurd (Token.begins_of_scan hscan) hslash
  · rfl

/-- A declaration as it is printed, with or without a space after the colon. -/
def declarationText (d : Declaration) (gap : List Char) : List Char :=
  d.property.toList ++ ':' :: (gap ++ d.value.toList)

section Declarations

variable {d : Declaration} {w gap more : List Char} {e : Char}

theorem isPrintable_iff : d.isPrintable = true ↔
    isName d.property.toList = true ∧ Text.isPhrase d.value = true ∧ d.value ≠ "" := by
  simp [Declaration.isPrintable, and_assoc]

/-- Going over a declaration. -/
theorem passesOver_declarationText (hd : d.isPrintable = true) (hgap : ∀ c ∈ gap, isSpace c = true)
    (he : isBreak e = true) (more : List Char) :
    PassesOver (declarationText d gap) (e :: more) := by
  obtain ⟨hname, hvalue, -⟩ := isPrintable_iff.1 hd
  refine .append (Token.passesOver_name hname _) (.append (x := [':'])
    (Token.passesOver_colon _) (.append (Token.passesOver_spaces hgap _) ?_))
  exact Token.passesOver_calm (Text.calm_of_isPhrase hvalue) he more

/-- How a printed declaration begins. -/
theorem exists_declarationText_eq (hd : d.isPrintable = true) (gap : List Char) :
    ∃ c rest, declarationText d gap = c :: rest ∧ isSpace c = false ∧ c ≠ '/' ∧ c ≠ '\x7d' := by
  obtain ⟨hname, -, -⟩ := isPrintable_iff.1 hd
  rcases Token.exists_of_isName hname with ⟨c, v, hv, hc⟩ | ⟨c, v, hv, -⟩
  · have hne : ∀ d : Char, Token.isNameStart d = false → c ≠ d := fun d hd =>
      Token.ne_of_isNameStart hd hc
    refine ⟨c, v ++ ':' :: (gap ++ d.value.toList), ?_, ?_, hne _ (by decide), hne _ (by decide)⟩
    · rw [declarationText, hv]
      rfl
    · refine Bool.eq_false_iff.2 fun hspace => ?_
      simp only [isSpace, Token.isNewline, Bool.or_eq_true, beq_iff_eq] at hspace
      rcases hspace with (h | h) | (h | h) | h <;> exact hne _ (by decide) h
  · refine ⟨'-', c :: v ++ ':' :: (gap ++ d.value.toList), ?_, by decide, by decide, by decide⟩
    rw [declarationText, hv]
    rfl

/-- A declaration is found where it was printed. -/
theorem declarationAt?_eq (hd : d.isPrintable = true) (hgap : ∀ c ∈ gap, isSpace c = true)
    (rest : List Char) : declarationAt? (declarationText d gap ++ rest) rest = some d := by
  obtain ⟨hname, hvalue, hne⟩ := isPrintable_iff.1 hd
  have hscan : scan (declarationText d gap ++ rest) =
      some (.ident d.property, ':' :: (gap ++ (d.value.toList ++ rest))) := by
    have hcolon : Token.EndsName (':' :: (gap ++ (d.value.toList ++ rest))) := .cons (by decide) _
    have h := Token.scan_ident hname hcolon
    rw [String.ofList_toList] at h
    simpa [declarationText] using h
  have hcolon : skipBlanks (':' :: (gap ++ (d.value.toList ++ rest))) =
      ':' :: (gap ++ (d.value.toList ++ rest)) :=
    skipBlanks_of_begins (by decide) (by decide) _
  have hstart : skipBlanks (gap ++ (d.value.toList ++ rest)) = d.value.toList ++ rest := by
    rw [skipBlanks_append hgap]
    obtain ⟨c, v, hv, hchar, hspace⟩ := Text.exists_of_isPhrase hvalue hne
    rw [hv, List.cons_append]
    exact skipBlanks_of_begins hspace (Token.ne_of_isCalm hchar (by decide)) _
  have hnil : ∀ c ∈ [], isSpace c = true := List.forall_mem_nil _
  have hraw : rawText (d.value.toList ++ rest) rest = d.value := by
    have h := rawText_framed hnil (Text.trimmed_of_isPhrase hvalue) hnil rest
    simpa using h
  have hvalue' : rawText (skipBlanks (gap ++ (d.value.toList ++ rest))) rest = d.value := by
    rw [hstart, hraw]
  unfold declarationAt?
  simp only [hscan, hcolon]
  show (if rawText (skipBlanks (gap ++ (d.value.toList ++ rest))) rest = "" ∧ _ then none
    else some ⟨d.property, rawText (skipBlanks (gap ++ (d.value.toList ++ rest))) rest⟩) = some d
  rw [hvalue', if_neg fun h => hne h.1]

/-- Reading a declaration that ends with a semicolon or with its block. -/
theorem nextDeclaration_eq (hw : ∀ c ∈ w, isSpace c = true) (hd : d.isPrintable = true)
    (hgap : ∀ c ∈ gap, isSpace c = true) (he : e = ';' ∨ e = '\x7d') (more : List Char) :
    nextDeclaration (w ++ (declarationText d gap ++ e :: more)) =
      some (some d, if e = ';' then more else e :: more) := by
  obtain ⟨c, rest, htext, hspace, hslash, hbrace⟩ := exists_declarationText_eq hd gap
  have hbreak : isBreak e = true := by rcases he with rfl | rfl <;> decide
  have hstart : skipBlanks (w ++ (declarationText d gap ++ e :: more)) =
      c :: (rest ++ e :: more) := by
    rw [skipBlanks_append hw, htext]
    exact skipBlanks_of_begins hspace hslash _
  have hstop : skipUntil [';', '\x7d'] (c :: (rest ++ e :: more)) = e :: more := by
    have hpass := (passesOver_declarationText hd hgap hbreak more).skip [';', '\x7d']
      (List.all_eq_true.1 rfl)
    rw [htext] at hpass
    rw [List.cons_append] at hpass
    rw [hpass]
    rcases he with rfl | rfl
    · exact Token.skipUntil_of_stop rfl
    · exact Token.skipUntil_of_stop rfl
  have hfound : declarationAt? (c :: (rest ++ e :: more)) (e :: more) = some d := by
    have h := declarationAt?_eq hd hgap (e :: more)
    rwa [htext] at h
  unfold nextDeclaration
  rw [hstart]
  split
  · next heq => cases heq
  · next heq => exact absurd (List.cons.inj heq).1 hbrace
  · next heq =>
    cases heq
    simp only [hstop, hfound]
    rcases he with rfl | rfl <;> rfl

/-- A block without declarations. -/
theorem declarations_nil (hw : ∀ c ∈ w, isSpace c = true) (more : List Char) :
    declarations (w ++ '\x7d' :: more) = [] := by
  have hend : nextDeclaration (w ++ '\x7d' :: more) = none := by
    unfold nextDeclaration
    rw [skipBlanks_append hw, skipBlanks_of_begins (by decide) (by decide)]
    rfl
  exact declarations_of_none hend

/-- The first declaration of a block. -/
theorem declarations_cons {cs rest : List Char} (h : nextDeclaration cs = some (some d, rest)) :
    declarations cs = d :: declarations rest :=
  declarations_of_some h

end Declarations

/-- Some text in a block is read as the given declarations. -/
structure HoldsDeclarations (x : List Char) (ds : List Declaration) : Prop where
  read : ∀ more, declarations (x ++ '\x7d' :: more) = ds
  close : ∀ more, ClosesOver x ('\x7d' :: more)

section HoldsDeclarations

variable {d : Declaration} {ds : List Declaration} {w gap x : List Char}

theorem HoldsDeclarations.nil (hw : ∀ c ∈ w, isSpace c = true) : HoldsDeclarations w [] where
  read := declarations_nil hw
  close _ := (Token.passesOver_spaces hw _).close

/-- A declaration at the end of a block. -/
theorem HoldsDeclarations.last (hw : ∀ c ∈ w, isSpace c = true) (hd : d.isPrintable = true)
    (hgap : ∀ c ∈ gap, isSpace c = true) :
    HoldsDeclarations (w ++ declarationText d gap) [d] where
  read more := by
    have hnext := nextDeclaration_eq hw hd hgap (.inr rfl) more
    rw [List.append_assoc, declarations_cons hnext]
    exact congrArg (d :: ·) (declarations_nil (List.forall_mem_nil _) more)
  close more := (Token.passesOver_spaces hw _).close.append
    (passesOver_declarationText hd hgap rfl more).close

/-- A declaration before a semicolon. -/
theorem HoldsDeclarations.cons (hw : ∀ c ∈ w, isSpace c = true) (hd : d.isPrintable = true)
    (hgap : ∀ c ∈ gap, isSpace c = true) (hx : HoldsDeclarations x ds) :
    HoldsDeclarations (w ++ (declarationText d gap ++ ';' :: x)) (d :: ds) where
  read more := by
    have hnext := nextDeclaration_eq hw hd hgap (.inl rfl) (x ++ '\x7d' :: more)
    have hsplit : w ++ (declarationText d gap ++ ';' :: x) ++ '\x7d' :: more =
        w ++ (declarationText d gap ++ ';' :: (x ++ '\x7d' :: more)) := by simp
    rw [hsplit, declarations_cons hnext]
    exact congrArg (d :: ·) (hx.read more)
  close more := by
    refine (Token.passesOver_spaces hw _).close.append (.append ?_ ?_)
    · exact (passesOver_declarationText hd hgap rfl _).close
    · exact .append (x := [';']) (Token.closesOver_semicolon _) (hx.close more)

end HoldsDeclarations

/-! ### Declarations as they are printed -/

theorem isSpace_of_mem_pad {o : PrintOptions} (ho : o.IsBlank) (level : Nat) :
    ∀ c ∈ (o.pad level).toList, isSpace c = true := by
  intro c hc
  rw [PrintOptions.pad, String.toList_join, List.mem_flatMap] at hc
  obtain ⟨s, hs, hc⟩ := hc
  rw [List.eq_of_mem_replicate hs] at hc
  rcases ho c hc with rfl | rfl <;> rfl

/-- The compressed declarations of a block. -/
theorem holdsDeclarations_compressed {ds : List Declaration}
    (hds : ∀ d ∈ ds, d.isPrintable = true) :
    HoldsDeclarations
      (";".intercalate (ds.map fun d => d.property ++ ":" ++ d.value)).toList ds := by
  have hnil : ∀ c ∈ [], isSpace c = true := List.forall_mem_nil _
  have htext : ∀ d : Declaration, (d.property ++ ":" ++ d.value).toList =
      declarationText d [] := by
    intro d
    simp [declarationText]
  induction ds with
  | nil => exact .nil hnil
  | cons d ds ih =>
    have hd := hds d List.mem_cons_self
    have hmore := ih fun d hd => hds d (List.mem_cons_of_mem _ hd)
    cases ds with
    | nil =>
      rw [List.map_singleton, String.intercalate_singleton, htext]
      exact .last hnil hd hnil
    | cons d' ds =>
      rw [List.map_cons, List.map_cons, String.intercalate_cons_cons, String.toList_append,
        String.toList_append, htext, List.append_assoc]
      exact .cons hnil hd hnil hmore

/-- The pretty declarations of a block, after any white space. -/
theorem holdsDeclarations_pretty {w pad pad' : List Char} (hw : ∀ c ∈ w, isSpace c = true)
    (hpad : ∀ c ∈ pad, isSpace c = true) (hpad' : ∀ c ∈ pad', isSpace c = true)
    {ds : List Declaration} (hds : ∀ d ∈ ds, d.isPrintable = true) :
    HoldsDeclarations
      (w ++ (ds.flatMap (fun d => pad' ++ (declarationText d [' '] ++ [';', '\n'])) ++ pad))
      ds := by
  induction ds generalizing w with
  | nil => exact .nil (by simpa [or_imp, forall_and] using ⟨hw, hpad⟩)
  | cons d ds ih =>
    have hmore := ih (w := ['\n']) (List.all_eq_true.1 rfl) fun d hd =>
      hds d (List.mem_cons_of_mem _ hd)
    have hlead : ∀ c ∈ w ++ pad', isSpace c = true := by
      simpa [or_imp, forall_and] using ⟨hw, hpad'⟩
    have hgap : ∀ c ∈ [' '], isSpace c = true := List.all_eq_true.1 rfl
    have hcons := HoldsDeclarations.cons hlead (hds d List.mem_cons_self) hgap hmore
    simpa using hcons

/-- The block in what is printed of some declarations. -/
theorem exists_block_of_printDeclarations {o : PrintOptions} (ho : o.IsBlank) (level : Nat)
    (header : String) {ds : List Declaration} (hds : ∀ d ∈ ds, d.isPrintable = true) :
    ∃ w gap inner : List Char, (∀ c ∈ w, isSpace c = true) ∧ (∀ c ∈ gap, c = ' ') ∧
      HoldsDeclarations inner ds ∧
      (printDeclarations o level header ds).toList =
        w ++ (header.toList ++ (gap ++ '\x7b' :: (inner ++ ['\x7d']))) := by
  rw [printDeclarations]
  split
  · refine ⟨[], [], _, by simp, by simp, holdsDeclarations_compressed hds, ?_⟩
    simp
  · refine ⟨(o.pad level).toList, [' '], _, isSpace_of_mem_pad ho level, by simp,
      holdsDeclarations_pretty (w := ['\n']) (List.all_eq_true.1 rfl) (isSpace_of_mem_pad ho level)
        (isSpace_of_mem_pad ho (level + 1)) hds, ?_⟩
    simp [declarationText, String.toList_join, List.flatMap_map]

/-! ## Lists of entries -/

section Entries

variable {joint : String} {w : List Char} {entries : List String}

/-- Going over the entries of a list. -/
theorem passesOver_intercalate (hjoint : joint.toList = ',' :: w)
    (hw : ∀ c ∈ w, isSpace c = true) (hall : ∀ e ∈ entries, Text.isEntry e = true) {b : Char}
    (hb : isBreak b = true) (more : List Char) :
    PassesOver (joint.intercalate entries).toList (b :: more) := by
  induction entries with
  | nil => exact .nil _
  | cons e entries ih =>
    have hcalm := Text.calm_of_isPhrase (Text.isPhrase_of_isEntry (hall e List.mem_cons_self))
    have hmore := ih fun e he => hall e (List.mem_cons_of_mem _ he)
    cases entries with
    | nil =>
      rw [String.intercalate_singleton]
      exact Token.passesOver_calm hcalm hb more
    | cons e' entries =>
      rw [String.intercalate_cons_cons, String.toList_append, String.toList_append, hjoint,
        List.append_assoc]
      refine .append (Token.passesOver_calm hcalm (by decide) _) ?_
      exact .append (x := [',']) (Token.passesOver_comma _)
        (.append (Token.passesOver_spaces hw _) hmore)

/-- A list begins with its first entry, and before the next one stands a comma. -/
theorem exists_intercalate_eq (hjoint : joint.toList = ',' :: w) (e : String)
    (entries : List String) (b : Char) (more : List Char) (hb : isBreak b = true) :
    ∃ b' more', (joint.intercalate (e :: entries)).toList ++ b :: more =
      e.toList ++ b' :: more' ∧ isBreak b' = true := by
  cases entries with
  | nil =>
    rw [String.intercalate_singleton]
    exact ⟨b, more, rfl, hb⟩
  | cons e' entries =>
    refine ⟨',', w ++ ((joint.intercalate (e' :: entries)).toList ++ b :: more), ?_, by decide⟩
    rw [String.intercalate_cons_cons]
    simp [hjoint]

/-- A list of entries is not empty and has no blanks at its ends. -/
theorem trimmed_intercalate (joint : String) (hne : entries ≠ [])
    (hall : ∀ e ∈ entries, Text.isEntry e = true) :
    (joint.intercalate entries).toList ≠ [] ∧
      Text.Trimmed (joint.intercalate entries).toList := by
  induction entries with
  | nil => exact absurd rfl hne
  | cons e entries ih =>
    have he := hall e List.mem_cons_self
    have htrimmed := Text.trimmed_of_isPhrase (Text.isPhrase_of_isEntry he)
    have hempty := Text.toList_ne_nil_of_isEntry he
    cases entries with
    | nil =>
      rw [String.intercalate_singleton]
      exact ⟨hempty, htrimmed⟩
    | cons e' entries =>
      obtain ⟨hne', htrimmed'⟩ := ih (List.cons_ne_nil _ _)
        fun e he => hall e (List.mem_cons_of_mem _ he)
      rw [String.intercalate_cons_cons, String.toList_append, String.toList_append,
        List.append_assoc]
      exact ⟨fun hnil => hempty (List.append_eq_nil_iff.1 hnil).1,
        htrimmed.append htrimmed' hempty hne' _⟩

/-- How a list of entries begins. -/
theorem exists_intercalate_cons (joint : String) (hne : entries ≠ [])
    (hall : ∀ e ∈ entries, Text.isEntry e = true) :
    ∃ c rest, (joint.intercalate entries).toList = c :: rest ∧ isCalm c = true ∧
      isSpace c = false := by
  obtain ⟨e, entries, rfl⟩ := List.exists_cons_of_ne_nil hne
  have he := hall e List.mem_cons_self
  obtain ⟨c, t, ht, hchar, hspace⟩ :=
    Text.exists_of_isPhrase (Text.isPhrase_of_isEntry he) (Text.ne_empty_of_isEntry he)
  cases entries with
  | nil => exact ⟨c, t, by rw [String.intercalate_singleton, ht], hchar, hspace⟩
  | cons e' entries =>
    refine ⟨c, t ++ (joint.toList ++ (joint.intercalate (e' :: entries)).toList), ?_, hchar,
      hspace⟩
    rw [String.intercalate_cons_cons, String.toList_append, String.toList_append, ht,
      List.append_assoc]
    rfl

end Entries

/-! ## Animation steps -/

section Steps

variable {source w gap inner : List Char}

/-- A text in braces, with a header and white space before it, is gone over as a whole. -/
theorem closesOver_braces {header : List Char} (hw : ∀ c ∈ w, isSpace c = true)
    (hheader : ∀ b more, isBreak b = true → ClosesOver header (b :: more))
    (hgap : ∀ c ∈ gap, c = ' ') (hinner : ∀ more, ClosesOver inner ('\x7d' :: more))
    (more : List Char) :
    ClosesOver (w ++ (header ++ (gap ++ '\x7b' :: (inner ++ ['\x7d'])))) more := by
  have hspaces := isSpace_of_eq_space hgap
  obtain ⟨b, more', hnext, hb⟩ :=
    exists_break hgap (rfl : isBreak '\x7b' = true) (inner ++ '\x7d' :: more)
  refine (Token.passesOver_spaces hw _).close.append (.append ?_
    ((Token.passesOver_spaces hspaces _).close.append (Token.closesOver_block (hinner more))))
  have hrest : gap ++ '\x7b' :: (inner ++ ['\x7d']) ++ more = b :: more' := by
    rw [← hnext]
    simp
  rw [hrest]
  exact hheader b more' hb

/-- Reading one step of an animation. -/
theorem nextStep_eq {joint : String} {w' : List Char} (hjoint : joint.toList = ',' :: w')
    (hw' : ∀ c ∈ w', isSpace c = true) {values : List String} (hne : values ≠ [])
    (hall : ∀ e ∈ values, Text.isEntry e = true) {ds : List Declaration}
    (hinner : HoldsDeclarations inner ds) (hw : ∀ c ∈ w, isSpace c = true)
    (hgap : ∀ c ∈ gap, c = ' ') (source more : List Char) :
    ∃ position, nextStep source (w ++ ((joint.intercalate values).toList ++
        (gap ++ '\x7b' :: (inner ++ '\x7d' :: more)))) =
      some (.item (.keyframe values ds) (some position), more) := by
  have hspaces := isSpace_of_eq_space hgap
  obtain ⟨c, rest, htext, hchar, hspace⟩ := exists_intercalate_cons joint hne hall
  have hstart : skipBlanks (w ++ ((joint.intercalate values).toList ++
      (gap ++ '\x7b' :: (inner ++ '\x7d' :: more)))) =
        c :: (rest ++ (gap ++ '\x7b' :: (inner ++ '\x7d' :: more))) := by
    rw [skipBlanks_append hw, htext]
    exact skipBlanks_of_begins hspace (Token.ne_of_isCalm hchar (by decide)) _
  have hstop : skipUntil ['\x7b', '\x7d'] (c :: (rest ++ (gap ++ '\x7b' :: (inner ++
      '\x7d' :: more)))) = '\x7b' :: (inner ++ '\x7d' :: more) := by
    obtain ⟨b, more', hnext, hb⟩ :=
      exists_break hgap (rfl : isBreak '\x7b' = true) (inner ++ '\x7d' :: more)
    have hstops : ∀ c ∈ ['\x7b', '\x7d'], isStop c = true := List.all_eq_true.1 rfl
    have hentries := (passesOver_intercalate hjoint hw' hall hb more').skip
      ['\x7b', '\x7d'] hstops
    rw [← hnext, (Token.passesOver_spaces hspaces _).skip _ hstops, htext] at hentries
    exact hentries.trans (Token.skipUntil_of_stop rfl)
  have hvalues : SelectorText.split (between (c :: (rest ++ (gap ++ '\x7b' :: (inner ++
      '\x7d' :: more)))) ('\x7b' :: (inner ++ '\x7d' :: more))) = values := by
    have hsplit : c :: (rest ++ (gap ++ '\x7b' :: (inner ++ '\x7d' :: more))) =
        ((joint.intercalate values).toList ++ gap) ++ '\x7b' :: (inner ++ '\x7d' :: more) := by
      rw [htext]
      simp
    rw [hsplit, between_append]
    exact SelectorText.split_intercalate hjoint hw' hspaces hne hall
  unfold nextStep
  rw [hstart]
  split
  · next heq => cases heq
  · next heq =>
    rw [(List.cons.inj heq).1] at hchar
    exact absurd hchar (by decide)
  · next heq =>
    cases heq
    simp only [hstop, hvalues, hinner.read more,
      Token.closeBlock_of_closesOver (hinner.close more)]
    exact ⟨_, rfl⟩

/-- White space stands before a step. -/
theorem steps_append_of_space (hw : ∀ c ∈ w, isSpace c = true) (source rest : List Char) :
    steps source (w ++ rest) = steps source rest := by
  have hnext : nextStep source (w ++ rest) = nextStep source rest := by
    rw [nextStep, nextStep, skipBlanks_append hw]
  rw [steps, hnext, ← steps]

/-- The end of an animation. -/
theorem steps_end (source more : List Char) : steps source ('\x7d' :: more) = [] := by
  have hend : nextStep source ('\x7d' :: more) = none := by
    rw [nextStep, skipBlanks_of_begins (by decide) (by decide)]
    rfl
  exact steps_of_none hend

end Steps

end Stylesheet

end CriticalCss
