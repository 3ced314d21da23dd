import CriticalCss.Proofs.Stylesheet.Blocks
import CriticalCss.Proofs.Stylesheet.Rejoining
import CriticalCss.Rule.Key

/-!
# What joined lists tell

The selectors of a style rule and the values of an animation step are joined where they are printed
and where they become a key.  The list can be read off the joined text again, whatever text it was
split from.

* `IsJoint` are the texts that may stand between two entries: a comma and white space.
  `IsJoint.split_joined` reads a joined list again.
* `printItem_eq_joined` says which text each layout puts between the entries, and
  `printDeclarations_inj` that nothing else in the block of a rule depends on them.
* `joined_tells_list` puts this together: joined texts, printed rules and keys determine the list.
-/

namespace CriticalCss

open Text (isBlank)

namespace SelectorText

/-! ## Joints -/

/-- A comma and white space. -/
def IsJoint (joint : String) : Prop :=
  ∃ w, joint.toList = ',' :: w ∧ ∀ c ∈ w, isBlank c = true

theorem isJoint_comma : IsJoint "," :=
  ⟨[], by decide, List.forall_mem_nil _⟩

theorem isJoint_space : IsJoint ", " :=
  ⟨[' '], by decide, List.forall_mem_singleton.2 (by decide)⟩

/-- A line of its own for each entry. -/
theorem isJoint_line {indent : String} (hindent : ∀ c ∈ indent.toList, isBlank c = true) :
    IsJoint (",\n" ++ indent) := by
  refine ⟨'\n' :: indent.toList, ?_, List.forall_mem_cons.2 ⟨by decide, hindent⟩⟩
  rw [String.toList_append]
  rfl

variable {joint : String}

/-- Splitting a joined list gives the list again. -/
theorem IsJoint.split_joined (h : IsJoint joint) (text : List Char) :
    split (joint.intercalate (split text)).toList = split text := by
  obtain ⟨w, hjoint, hw⟩ := h
  exact split_rejoined hjoint hw text

/-- Lists that are joined to the same text are the same. -/
theorem IsJoint.split_eq_of_joined (h : IsJoint joint) {text other : List Char}
    (heq : joint.intercalate (split text) = joint.intercalate (split other)) :
    split text = split other :=
  calc split text
    _ = split (joint.intercalate (split text)).toList := (h.split_joined text).symm
    _ = split (joint.intercalate (split other)).toList := by rw [heq]
    _ = split other := h.split_joined other

end SelectorText

/-! ## Printed rules -/

namespace Stylesheet

open SelectorText (IsJoint isJoint_comma isJoint_space isJoint_line)

/-- The items with a list before their declarations. -/
def listItems : List (List String → List Declaration → Item) :=
  [.style, .keyframe]

/-- The text before a block is all that is printed differently where the declarations are the
same. -/
theorem printDeclarations_inj {o : PrintOptions} {level : Nat} {header header' : String}
    {ds : List Declaration}
    (h : printDeclarations o level header ds = printDeclarations o level header' ds) :
    header = header' := by
  rw [printDeclarations, printDeclarations] at h
  split at h
  · simpa only [String.append_left_inj] using h
  · simpa only [String.append_left_inj, String.append_right_inj] using h

/-- A list is printed before the block, joined by a text that depends on the layout alone. -/
theorem printItem_eq_joined {o : PrintOptions} (ho : o.compress = true ∨ o.IsBlank) (level : Nat)
    {item : List String → List Declaration → Item} (hitem : item ∈ listItems) :
    ∃ joint, IsJoint joint ∧ ∀ entries ds,
      printItem o level (item entries ds) =
        some (printDeclarations o level (joint.intercalate entries) ds) := by
  have hcompressed (pretty : String) (hpretty : o.IsBlank → IsJoint pretty) :
      IsJoint (if o.compress then "," else pretty) := by
    split
    · exact isJoint_comma
    · next hcompress => exact hpretty (ho.resolve_left hcompress)
  have hline (hblank : o.IsBlank) : IsJoint (",\n" ++ o.pad level) :=
    isJoint_line fun c hc => Text.isBlank_of_isSpace (isSpace_of_mem_pad hblank level c hc)
  rcases List.mem_cons.1 hitem with rfl | hitem
  · exact ⟨_, hcompressed _ hline, fun _ _ => rfl⟩
  · rw [List.mem_singleton.1 hitem]
    exact ⟨_, hcompressed _ fun _ => isJoint_space, fun _ _ => rfl⟩

/-- A list makes up the end of a key, joined by commas. -/
theorem keyWith?_eq_joined {item : List String → List Declaration → Item}
    (hitem : item ∈ listItems) (separator context : String) (entries : List String)
    (ds : List Declaration) (p : Option Position) :
    (Node.item (item entries ds) p).keyWith? separator context =
      some (context ++ separator ++ ",".intercalate entries) := by
  rcases List.mem_cons.1 hitem with rfl | hitem
  · rfl
  · rw [List.mem_singleton.1 hitem]
    rfl

end Stylesheet

/-! ## What joined lists tell -/

namespace SelectorText

open Stylesheet

/-- A list that some text was split into can be read off every text it is joined to: with commas, with
commas and spaces, and with lines that are indented by spaces and tabs.  So compressed and pretty
output tell the list of a style rule and of an animation step, and so do their keys. -/
theorem joined_tells_list (text : List Char) :
    (split (",".intercalate (split text)).toList = split text ∧
      split (", ".intercalate (split text)).toList = split text ∧
      ∀ indent : String, (∀ c ∈ indent.toList, c = ' ' ∨ c = '\t') →
        split ((",\n" ++ indent).intercalate (split text)).toList = split text) ∧
      ∀ item ∈ listItems,
        (∀ (o : PrintOptions) (level : Nat) (ds : List Declaration),
          o.compress = true ∨ o.IsBlank →
            (∃ header, split header.toList = split text ∧
              printItem o level (item (split text) ds) =
                some (printDeclarations o level header ds)) ∧
            ∀ other, printItem o level (item (split text) ds) =
              printItem o level (item (split other) ds) → split text = split other) ∧
        ∀ separator context other ds ds' p p',
          (Node.item (item (split text) ds) p).keyWith? separator context =
            (Node.item (item (split other) ds') p').keyWith? separator context →
          split text = split other := by
  refine ⟨⟨isJoint_comma.split_joined text, isJoint_space.split_joined text, ?_⟩, ?_⟩
  · intro indent hindent
    refine (isJoint_line fun c hc => ?_).split_joined text
    rcases hindent c hc with rfl | rfl <;> decide
  · intro item hitem
    refine ⟨?printed, ?keys⟩
    case printed =>
      intro o level ds ho
      obtain ⟨joint, hjoint, hprint⟩ := printItem_eq_joined ho level hitem
      refine ⟨⟨_, hjoint.split_joined text, hprint _ ds⟩, ?_⟩
      intro other heq
      rw [hprint, hprint, Option.some_inj] at heq
      exact hjoint.split_eq_of_joined (printDeclarations_inj heq)
    case keys =>
      intro separator context other ds ds' p p' heq
      rw [keyWith?_eq_joined hitem, keyWith?_eq_joined hitem, Option.some_inj,
        String.append_right_inj] at heq
      exact isJoint_comma.split_eq_of_joined heq

/-- Selectors with a string that is escaped in part, with commas in brackets, with an entry that is
empty, and with brackets and a string that are not closed. -/
def unclosedList : List Char :=
  "a[b='\\', c'] ,, :is(p,\n q) ) ,.x ( , \"d\\  ".toList

theorem joined_tells_list_unclosedList :
    split unclosedList = ["a[b='\\', c']", ":is(p, q) )", ".x ( , \"d\\"] ∧
      (∀ c ∈ "\t ".toList, c = ' ' ∨ c = '\t') ∧
      split ((",\n" ++ "\t ").intercalate (split unclosedList)).toList = split unclosedList ∧
      Item.keyframe ∈ listItems ∧ (⟨"\t", false⟩ : PrintOptions).IsBlank ∧
      printItem ⟨"\t", false⟩ 2 (.keyframe (split unclosedList) []) ≠
        printItem ⟨"\t", false⟩ 2 (.keyframe (split "a[b='\\', c']".toList) []) := by
  have hsplit : split unclosedList = ["a[b='\\', c']", ":is(p, q) )", ".x ( , \"d\\"] := by
    decide +kernel
  have hother : split unclosedList ≠ split "a[b='\\', c']".toList := by decide +kernel
  have hindent : ∀ c ∈ "\t ".toList, c = ' ' ∨ c = '\t' := by
    rw [show "\t ".toList = ['\t', ' '] by decide]
    exact List.forall_mem_cons.2 ⟨.inr rfl, List.forall_mem_singleton.2 (.inl rfl)⟩
  have hitem : Item.keyframe ∈ listItems := List.mem_cons_of_mem _ (List.mem_singleton_self _)
  have hblank : (⟨"\t", false⟩ : PrintOptions).IsBlank := by decide
  obtain ⟨⟨-, -, hlines⟩, hrules⟩ := joined_tells_list unclosedList
  have hprinted := (hrules Item.keyframe hitem).1 ⟨"\t", false⟩ 2 [] (.inr hblank)
  exact ⟨hsplit, hindent, hlines "\t " hindent, hitem, hblank,
    fun heq => hother (hprinted.2 _ heq)⟩

end SelectorText

end CriticalCss
