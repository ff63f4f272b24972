import UsageCensus.Proofs.Document.Decimals
import UsageCensus.Proofs.Document.Quoted
import UsageCensus.Proofs.Document.Saving
import UsageCensus.Proofs.Tables

/-!
# Saved documents read back

The text of a saved document is read as the document, up to the numbers that are no integers
(`parseWith_savedText`), if there is room for its levels and its texts are read back from their
quotes. Each value is read up to its end, whatever follows, as long as nothing there goes on with a
number; so lists and objects are read one part after the other.
-/

namespace UsageCensus.Document

open UsageCensus.Number UsageCensus.Text

/-- The values of JSON alone, with no key twice in an object. -/
inductive IsData : Document → Prop
  | null : IsData .null
  | bool (b : Bool) : IsData (.bool b)
  | int (n : Int) : IsData (.int n)
  | float (x : Binary64) : IsData (.float x)
  | string (s : String) : IsData (.string s)
  | list {items : List Document} (hitems : ∀ item ∈ items, IsData item) : IsData (.list items)
  | object {members : List (String × Document)} (hkeys : (members.map Prod.fst).Nodup)
      (hmembers : ∀ member ∈ members, IsData member.2) : IsData (.object members)

mutual

/-- All texts in data, those of keys too. -/
def texts : Document → List String
  | string s => [s]
  | list items => textsOfItems items
  | object members => textsOfMembers members
  | _ => []

def textsOfItems : List Document → List String
  | [] => []
  | item :: items => item.texts ++ textsOfItems items

def textsOfMembers : List (String × Document) → List String
  | [] => []
  | (key, value) :: members => key :: (value.texts ++ textsOfMembers members)

end

theorem forall_textsOfItems_iff {p : String → Prop} {items : List Document} :
    (∀ text ∈ textsOfItems items, p text) ↔ ∀ item ∈ items, ∀ text ∈ item.texts, p text := by
  induction items with
  | nil => simp [textsOfItems]
  | cons item items ih => rw [textsOfItems, List.forall_mem_append, ih, List.forall_mem_cons]

theorem forall_textsOfMembers_iff {p : String → Prop} {members : List (String × Document)} :
    (∀ text ∈ textsOfMembers members, p text)
      ↔ ∀ member ∈ members, p member.1 ∧ ∀ text ∈ member.2.texts, p text := by
  induction members with
  | nil => simp [textsOfMembers]
  | cons member members ih =>
    rw [textsOfMembers, List.forall_mem_cons, List.forall_mem_append, ih, List.forall_mem_cons,
      and_assoc]

/-- What a number is read as that has been written in its shortest notation. -/
def rereadFloat (x : Binary64) : Document :=
  match readScalar (x.shortest specialNames).toList with
  | .ok (value, _) => value
  | .error _ => .float x

mutual

/-- What a document is read as that has been written. -/
def reread : Document → Document
  | float x => rereadFloat x
  | list items => list (rereadItems items)
  | object members => object (rereadMembers members)
  | value => value

def rereadItems : List Document → List Document
  | [] => []
  | item :: items => item.reread :: rereadItems items

def rereadMembers : List (String × Document) → List (String × Document)
  | [] => []
  | (key, value) :: members => (key, value.reread) :: rereadMembers members

end

theorem map_fst_rereadMembers (members : List (String × Document)) :
    (rereadMembers members).map Prod.fst = members.map Prod.fst := by
  induction members with
  | nil => rw [rereadMembers]
  | cons m members ih => rw [rereadMembers, List.map_cons, List.map_cons, ih]

theorem rereadItems_eq {items : List Document} (h : ∀ item ∈ items, item.reread = item) :
    rereadItems items = items := by
  induction items with
  | nil => rw [rereadItems]
  | cons item items ih =>
    rw [rereadItems, h item (by simp), ih fun item hmem => h item (by simp [hmem])]

theorem rereadMembers_eq {members : List (String × Document)}
    (h : ∀ member ∈ members, member.2.reread = member.2) : rereadMembers members = members := by
  induction members with
  | nil => rw [rereadMembers]
  | cons member members ih =>
    rw [rereadMembers, h member (by simp), ih fun member hmem => h member (by simp [hmem])]

theorem lookup_rereadMembers (members : List (String × Document)) (key : String) :
    (rereadMembers members).lookup key = (members.lookup key).map reread := by
  induction members with
  | nil => rw [rereadMembers]; rfl
  | cons member members ih =>
    rw [rereadMembers, List.lookup_cons, List.lookup_cons]
    cases key == member.1
    · exact ih
    · rfl

/-- Data whose numbers are integers. -/
inductive IsExact : Document → Prop
  | null : IsExact .null
  | bool (b : Bool) : IsExact (.bool b)
  | int (n : Int) : IsExact (.int n)
  | string (s : String) : IsExact (.string s)
  | list {items : List Document} (hitems : ∀ item ∈ items, IsExact item) : IsExact (.list items)
  | object {members : List (String × Document)} (hkeys : (members.map Prod.fst).Nodup)
      (hmembers : ∀ member ∈ members, IsExact member.2) : IsExact (.object members)

theorem IsExact.isData {value : Document} (h : IsExact value) : IsData value := by
  induction h with
  | null => exact .null
  | bool b => exact .bool b
  | int n => exact .int n
  | string s => exact .string s
  | list _ ih => exact .list ih
  | object hkeys _ ih => exact .object hkeys ih

theorem IsExact.reread_eq {value : Document} (h : IsExact value) : value.reread = value := by
  induction h with
  | list _ ih => rw [reread, rereadItems_eq ih]
  | object _ _ ih => rw [reread, rereadMembers_eq ih]
  | _ => simp only [reread]

/-! ## Scalars -/

/-- The text is read as a value, whatever follows it. -/
def ReadsAs (text : List Char) (value : Document) : Prop :=
  ∀ rest, Ends continuesNumber rest → readScalar (text ++ rest) = .ok (value, rest)

theorem readsAs_float (x : Binary64) :
    ReadsAs (x.shortest specialNames).toList (rereadFloat x) := by
  obtain ⟨y, hy⟩ := readScalar_shortest x
  have hvalue : rereadFloat x = .float y := by
    have hread := hy [] .nil
    rw [List.append_nil] at hread
    rw [rereadFloat, hread]
  rw [hvalue]
  exact hy

/-- A word or a number starts with no blank, and not like other values. -/
theorem exists_cons_of_readScalar {text rest : List Char} {value : Document}
    (h : readScalar text = .ok (value, rest)) :
    ∃ c cs, text = c :: cs ∧ isSpace c = false ∧ c ≠ '"' ∧ c ≠ '[' ∧ c ≠ '\x7b' := by
  cases text with
  | nil => cases h
  | cons c cs =>
    refine ⟨c, cs, rfl, ?_, ?_, ?_, ?_⟩
    · cases hc : isSpace c with
      | false => rfl
      | true =>
        simp only [isSpace, Bool.or_eq_true, beq_iff_eq] at hc
        rcases hc with ((rfl | rfl) | rfl) | rfl <;> cases h
    · rintro rfl; cases h
    · rintro rfl; cases h
    · rintro rfl; cases h

/-- What does not start like other values is a word or a number. -/
theorem readValue_cons {c : Char} (hquote : c ≠ '"') (hbracket : c ≠ '[') (hbrace : c ≠ '\x7b')
    (surrogates : Surrogates) (fuel room : Nat) (text : List Char) :
    readValue surrogates (fuel + 1) room (c :: text) = readScalar (c :: text) := by
  rw [readValue]
  · rintro tail e; exact hquote (List.cons.inj e).1
  · rintro tail e; exact hbracket (List.cons.inj e).1
  · rintro tail e; exact hbrace (List.cons.inj e).1

theorem readValue_scalar {text : List Char} {value : Document} (h : ReadsAs text value)
    (surrogates : Surrogates) (fuel room : Nat) {rest : List Char}
    (hrest : Ends continuesNumber rest) :
    readValue surrogates (fuel + 1) room (text ++ rest) = .ok (value, rest) := by
  have hread := h rest hrest
  obtain ⟨c, cs, htext, -, hquote, hbracket, hbrace⟩ := exists_cons_of_readScalar hread
  rw [htext] at hread ⊢
  rw [readValue_cons hquote hbracket hbrace, hread]

/-! ## Layout -/

theorem skipSpace_of_ends {text : List Char} (h : Ends isSpace text) : skipSpace text = text :=
  dropWhile_of_ends h

theorem skipSpace_newline (layout : Layout) (depth : Nat) {text : List Char}
    (h : Ends isSpace text) : skipSpace (layout.newline depth ++ text) = text := by
  refine dropWhile_append_of_ends (fun c hc => ?_) h
  cases layout with
  | oneLine => cases hc
  | indented =>
    rcases List.mem_cons.1 hc with rfl | hc
    · rfl
    · rw [List.eq_of_mem_replicate hc]; rfl

/-- A separator is a comma with blanks behind it. -/
theorem exists_separator (layout : Layout) (depth : Nat) :
    ∃ gap, layout.separator depth = ',' :: gap ∧
      ∀ text, Ends isSpace text → skipSpace (gap ++ text) = text := by
  cases layout with
  | oneLine =>
    exact ⟨[' '], rfl, fun text h =>
      dropWhile_append_of_ends (forall_mem_of_all (by decide)) h⟩
  | indented =>
    exact ⟨Layout.newline .indented depth, rfl, fun text h => skipSpace_newline .indented depth h⟩

theorem ends_newline (layout : Layout) (depth : Nat) {c : Char}
    (h : continuesNumber c = false) (rest : List Char) :
    Ends continuesNumber (layout.newline depth ++ c :: rest) := by
  cases layout with
  | oneLine => exact .cons h
  | indented => exact .cons (by decide)

/-! ## Writing in front of a text -/

theorem writeItems_append {written : Surrogates} {items : List Document} (layout : Layout)
    (depth : Nat) (h : ∀ item ∈ items, ∀ text, write written layout depth item text
      = write written layout depth item [] ++ text) (text : List Char) :
    writeItems written layout depth items text
      = writeItems written layout depth items [] ++ text := by
  induction items with
  | nil => simp only [writeItems, List.nil_append]
  | cons item items ih =>
    have hitem := h item (by simp)
    have hitems := ih fun item' hmem => h item' (by simp [hmem])
    rw [writeItems, writeItems, hitem, hitems, hitem (writeItems ..)]
    simp only [List.append_assoc]

theorem writeMembers_append {written : Surrogates} {members : List (String × Document)}
    (layout : Layout) (depth : Nat)
    (h : ∀ member ∈ members, ∀ text, write written layout depth member.2 text
      = write written layout depth member.2 [] ++ text) (text : List Char) :
    writeMembers written layout depth members text
      = writeMembers written layout depth members [] ++ text := by
  induction members with
  | nil => simp only [writeMembers, List.nil_append]
  | cons member members ih =>
    obtain ⟨key, value⟩ := member
    have hvalue : ∀ text, write written layout depth value text
        = write written layout depth value [] ++ text := h (key, value) (by simp)
    have hmembers := ih fun member hmem => h member (by simp [hmem])
    rw [writeMembers, writeMembers, hvalue, hmembers, hvalue (writeMembers ..)]
    simp only [List.append_assoc, List.cons_append]

theorem write_append {written : Surrogates} {value : Document} (h : IsData value)
    (layout : Layout) (depth : Nat) (text : List Char) :
    write written layout depth value text = write written layout depth value [] ++ text := by
  induction h generalizing depth text with
  | null => simp only [write, List.append_nil]
  | bool b => cases b <;> simp only [write, List.append_nil]
  | int n => simp only [write, List.append_nil]
  | float x => simp only [write, List.append_nil]
  | string s => simp only [write, List.append_nil]
  | @list items hitems ih =>
    cases items with
    | nil => simp only [write, List.cons_append, List.nil_append]
    | cons item items =>
      have hitem := ih item (by simp) (depth + 1)
      have hrest := writeItems_append layout (depth + 1)
        fun item' hmem => ih item' (List.mem_cons_of_mem _ hmem) (depth + 1)
      rw [write, write, hitem, hrest, hitem (writeItems ..), hrest (layout.newline depth ++ [']'])]
      simp only [List.append_assoc, List.cons_append, List.nil_append]
  | @object members hkeys hmembers ih =>
    cases members with
    | nil => simp only [write, List.cons_append, List.nil_append]
    | cons member members =>
      obtain ⟨key, value⟩ := member
      have hvalue : ∀ text, write written layout (depth + 1) value text
          = write written layout (depth + 1) value [] ++ text :=
        ih (key, value) (by simp) (depth + 1)
      have hrest := writeMembers_append layout (depth + 1)
        fun member hmem => ih member (List.mem_cons_of_mem _ hmem) (depth + 1)
      rw [write, write, hvalue, hrest, hvalue (writeMembers ..),
        hrest (layout.newline depth ++ ['\x7d'])]
      simp only [List.append_assoc, List.cons_append, List.nil_append]

/-! ## Reading what has been written -/

/-- A value that is written at any place is read back where `room` more brackets may be open. -/
structure ReadsBack (written surrogates : Surrogates) (room : Nat) (value : Document) : Prop where
  data : IsData value
  starts : ∀ layout depth text, Ends isSpace (write written layout depth value text)
  closes : ∀ layout depth text c, c = ']' ∨ c = '\x7d' →
    ∀ rest, write written layout depth value text ≠ c :: rest
  read : ∀ layout depth fuel rest, (write written layout depth value []).length ≤ fuel →
    Ends continuesNumber rest → readValue surrogates fuel room
      (write written layout depth value rest) = .ok (value.reread, rest)

theorem ReadsBack.ofScalar {written surrogates : Surrogates} {room : Nat} {value : Document}
    (text : List Char) (hdata : IsData value)
    (hwrite : ∀ layout depth rest, write written layout depth value rest = text ++ rest)
    (h : ReadsAs text value.reread) : ReadsBack written surrogates room value := by
  have hread := h [] .nil
  rw [List.append_nil] at hread
  obtain ⟨c, cs, rfl, hspace, -⟩ := exists_cons_of_readScalar hread
  refine ⟨hdata, fun layout depth rest => ?_, fun layout depth rest d hd rest' e => ?_,
    fun layout depth fuel rest hfuel hrest => ?_⟩
  · rw [hwrite]
    exact .cons hspace
  · rw [hwrite] at e
    have hc := (List.cons.inj e).1
    subst hc
    rcases hd with rfl | rfl <;> cases hread
  · rw [hwrite] at hfuel
    rw [hwrite]
    obtain ⟨fuel, rfl⟩ : ∃ n, fuel = n + 1 := ⟨fuel - 1, by simp at hfuel; omega⟩
    exact readValue_scalar h surrogates fuel room hrest

section

variable {written surrogates : Surrogates} {room : Nat} {layout : Layout}

theorem ends_writeItems (written : Surrogates) (layout : Layout) (depth outer : Nat)
    (items : List Document) (rest : List Char) :
    Ends continuesNumber
      (writeItems written layout depth items (layout.newline outer ++ ']' :: rest)) := by
  cases items with
  | nil =>
    rw [writeItems]
    exact ends_newline layout outer (by decide) rest
  | cons item items =>
    obtain ⟨gap, hgap, -⟩ := exists_separator layout depth
    rw [writeItems, hgap]
    exact .cons (by decide)

theorem readItems_last {fuel : Nat} {text text' rest : List Char} {item : Document}
    (hitem : readValue surrogates fuel room text = .ok (item, text'))
    (hclose : skipSpace text' = ']' :: rest) :
    readItems surrogates (fuel + 1) room text = .ok ([item], rest) := by
  rw [readItems, hitem]
  dsimp only [bind, Except.bind]
  rw [hclose]
  rfl

theorem readItems_more {fuel : Nat} {text text' more rest : List Char} {item : Document}
    {items : List Document} (hitem : readValue surrogates fuel room text = .ok (item, text'))
    (hcomma : skipSpace text' = ',' :: more)
    (hitems : readItems surrogates fuel room (skipSpace more) = .ok (items, rest)) :
    readItems surrogates (fuel + 1) room text = .ok (item :: items, rest) := by
  rw [readItems, hitem]
  dsimp only [bind, Except.bind]
  rw [hcomma]
  show Except.bind (readItems surrogates fuel room (skipSpace more)) _ = _
  rw [hitems]
  rfl

theorem readItems_write {item : Document} {items : List Document}
    (h : ∀ x ∈ item :: items, ReadsBack written surrogates room x) (depth outer : Nat) {fuel : Nat}
    (hfuel : (write written layout depth item []).length
      + (writeItems written layout depth items []).length < fuel) (rest : List Char) :
    readItems surrogates fuel room (write written layout depth item
        (writeItems written layout depth items (layout.newline outer ++ ']' :: rest)))
      = .ok (rereadItems (item :: items), rest) := by
  induction items generalizing item fuel with
  | nil =>
    obtain ⟨fuel, rfl⟩ : ∃ n, fuel = n + 1 := ⟨fuel - 1, by omega⟩
    have hread := (h item (by simp)).read layout depth fuel _ (by omega)
      (ends_writeItems written layout depth outer [] rest)
    rw [rereadItems, rereadItems]
    refine readItems_last hread ?_
    rw [writeItems]
    exact skipSpace_newline layout outer (.cons (by decide))
  | cons next items ih =>
    obtain ⟨fuel, rfl⟩ : ∃ n, fuel = n + 1 := ⟨fuel - 1, by omega⟩
    have hread := (h item (by simp)).read layout depth fuel _ (by omega)
      (ends_writeItems written layout depth outer (next :: items) rest)
    have hnext := h next (by simp)
    obtain ⟨gap, hgap, hskip⟩ := exists_separator layout depth
    have hlength : (write written layout depth next []).length
        + (writeItems written layout depth items []).length
          < (writeItems written layout depth (next :: items) []).length := by
      rw [writeItems, hgap, write_append hnext.data layout depth (writeItems ..)]
      simp only [List.length_append, List.length_cons]
      omega
    have hrest : readItems surrogates fuel room (write written layout depth next
        (writeItems written layout depth items (layout.newline outer ++ ']' :: rest)))
          = .ok (rereadItems (next :: items), rest) :=
      ih (fun x hx => h x (List.mem_cons_of_mem _ hx)) (by omega)
    have hcomma : skipSpace
        (writeItems written layout depth (next :: items) (layout.newline outer ++ ']' :: rest))
          = ',' :: (gap ++ write written layout depth next
            (writeItems written layout depth items (layout.newline outer ++ ']' :: rest))) := by
      rw [writeItems, hgap, List.cons_append]
      exact skipSpace_of_ends (.cons (by decide))
    rw [rereadItems]
    refine readItems_more hread hcomma ?_
    rw [hskip _ (hnext.starts layout depth _), hrest]

theorem ends_writeMembers (written : Surrogates) (layout : Layout) (depth outer : Nat)
    (members : List (String × Document)) (rest : List Char) :
    Ends continuesNumber
      (writeMembers written layout depth members (layout.newline outer ++ '\x7d' :: rest)) := by
  cases members with
  | nil =>
    rw [writeMembers]
    exact ends_newline layout outer (by decide) rest
  | cons member members =>
    obtain ⟨gap, hgap, -⟩ := exists_separator layout depth
    rw [writeMembers, hgap]
    exact .cons (by decide)

theorem readMembers_last {fuel : Nat} {text text' rest : List Char} {key : String}
    {value : Document} (hkey : IsReadable written surrogates key.toList)
    (hvalue : readValue surrogates fuel room text = .ok (value, text'))
    (hstart : Ends isSpace text) (hclose : skipSpace text' = '\x7d' :: rest) :
    readMembers surrogates (fuel + 1) room (quote written key ++ ':' :: ' ' :: text)
      = .ok ([(key, value)], rest) := by
  have hcolon : skipSpace (':' :: ' ' :: text) = ':' :: ' ' :: text :=
    skipSpace_of_ends (.cons (by decide))
  have hspace : skipSpace (' ' :: text) = text := skipSpace_of_ends hstart
  rw [readMembers, readText?_quote hkey]
  dsimp only
  rw [hcolon]
  show Except.bind (readValue surrogates fuel room (skipSpace (' ' :: text))) _ = _
  rw [hspace, hvalue]
  dsimp only [Except.bind]
  rw [hclose]
  rfl

theorem readMembers_more {fuel : Nat} {text text' more rest : List Char} {key : String}
    {value : Document} {members : List (String × Document)}
    (hkey : IsReadable written surrogates key.toList)
    (hvalue : readValue surrogates fuel room text = .ok (value, text'))
    (hstart : Ends isSpace text) (hcomma : skipSpace text' = ',' :: more)
    (hmembers : readMembers surrogates fuel room (skipSpace more) = .ok (members, rest)) :
    readMembers surrogates (fuel + 1) room (quote written key ++ ':' :: ' ' :: text)
      = .ok ((key, value) :: members, rest) := by
  have hcolon : skipSpace (':' :: ' ' :: text) = ':' :: ' ' :: text :=
    skipSpace_of_ends (.cons (by decide))
  have hspace : skipSpace (' ' :: text) = text := skipSpace_of_ends hstart
  rw [readMembers, readText?_quote hkey]
  dsimp only
  rw [hcolon]
  show Except.bind (readValue surrogates fuel room (skipSpace (' ' :: text))) _ = _
  rw [hspace, hvalue]
  dsimp only [Except.bind]
  rw [hcomma]
  show Except.bind (readMembers surrogates fuel room (skipSpace more)) _ = _
  rw [hmembers]
  rfl

/-- The member is read back. -/
structure MemberReadsBack (written surrogates : Surrogates) (room : Nat)
    (member : String × Document) : Prop where
  key : IsReadable written surrogates member.1.toList
  value : ReadsBack written surrogates room member.2

theorem readMembers_write {key : String} {value : Document} {members : List (String × Document)}
    (hmember : MemberReadsBack written surrogates room (key, value))
    (h : ∀ member ∈ members, MemberReadsBack written surrogates room member) (depth outer : Nat)
    {fuel : Nat} (hfuel : (write written layout depth value []).length
      + (writeMembers written layout depth members []).length < fuel) (rest : List Char) :
    readMembers surrogates fuel room (quote written key ++ ':' :: ' ' ::
        write written layout depth value
          (writeMembers written layout depth members (layout.newline outer ++ '\x7d' :: rest)))
      = .ok (rereadMembers ((key, value) :: members), rest) := by
  induction members generalizing key value fuel with
  | nil =>
    obtain ⟨fuel, rfl⟩ : ∃ n, fuel = n + 1 := ⟨fuel - 1, by omega⟩
    have hvalue : ReadsBack written surrogates room value := hmember.value
    have hread := hvalue.read layout depth fuel _ (by omega)
      (ends_writeMembers written layout depth outer [] rest)
    rw [rereadMembers, rereadMembers]
    refine readMembers_last hmember.key hread (hvalue.starts layout depth _) ?_
    rw [writeMembers]
    exact skipSpace_newline layout outer (.cons (by decide))
  | cons next members ih =>
    obtain ⟨fuel, rfl⟩ : ∃ n, fuel = n + 1 := ⟨fuel - 1, by omega⟩
    obtain ⟨nextKey, nextValue⟩ := next
    have hvalue : ReadsBack written surrogates room value := hmember.value
    have hread := hvalue.read layout depth fuel _ (by omega)
      (ends_writeMembers written layout depth outer ((nextKey, nextValue) :: members) rest)
    have hnext := h (nextKey, nextValue) (by simp)
    obtain ⟨gap, hgap, hskip⟩ := exists_separator layout depth
    have hlength : (write written layout depth nextValue []).length
        + (writeMembers written layout depth members []).length
          < (writeMembers written layout depth ((nextKey, nextValue) :: members) []).length := by
      rw [writeMembers, hgap, write_append hnext.value.data layout depth (writeMembers ..)]
      simp only [List.length_append, List.length_cons]
      omega
    have hrest : readMembers surrogates fuel room (quote written nextKey ++ ':' :: ' ' ::
        write written layout depth nextValue
          (writeMembers written layout depth members (layout.newline outer ++ '\x7d' :: rest)))
            = .ok (rereadMembers ((nextKey, nextValue) :: members), rest) :=
      ih hnext (fun member hmem => h member (List.mem_cons_of_mem _ hmem)) (by omega)
    have hquote : ∀ text, Ends isSpace (quote written nextKey ++ text) := by
      intro text
      rw [quote_eq]
      exact .cons (by decide)
    have hcomma : skipSpace (writeMembers written layout depth ((nextKey, nextValue) :: members)
        (layout.newline outer ++ '\x7d' :: rest))
          = ',' :: (gap ++ (quote written nextKey ++ ':' :: ' ' ::
            write written layout depth nextValue (writeMembers written layout depth members
              (layout.newline outer ++ '\x7d' :: rest)))) := by
      rw [writeMembers, hgap, List.cons_append]
      exact skipSpace_of_ends (.cons (by decide))
    rw [rereadMembers]
    refine readMembers_more hmember.key hread (hvalue.starts layout depth _) hcomma ?_
    rw [hskip _ (hquote _), hrest]

end

section

variable {written surrogates : Surrogates} {room : Nat}

theorem ReadsBack.null : ReadsBack written surrogates room .null := by
  refine .ofScalar ['n', 'u', 'l', 'l'] .null (fun layout depth rest => ?_) fun rest _ => rfl
  rw [write]

theorem ReadsBack.bool (b : Bool) : ReadsBack written surrogates room (.bool b) := by
  cases b with
  | true =>
    refine .ofScalar ['t', 'r', 'u', 'e'] (.bool true) (fun layout depth rest => ?_)
      fun rest _ => rfl
    rw [write]
  | false =>
    refine .ofScalar ['f', 'a', 'l', 's', 'e'] (.bool false) (fun layout depth rest => ?_)
      fun rest _ => rfl
    rw [write]

theorem ReadsBack.int {n : Int} (h : Text.isWritable n) :
    ReadsBack written surrogates room (.int n) := by
  refine .ofScalar (toString n).toList (.int n) (fun layout depth rest => ?_) fun rest hrest => ?_
  · rw [write]
  · simp only [reread]
    exact readScalar_int h hrest

theorem ReadsBack.float (x : Binary64) : ReadsBack written surrogates room (.float x) := by
  refine .ofScalar (x.shortest specialNames).toList (.float x) (fun layout depth rest => ?_) ?_
  · rw [write]
  · rw [reread]
    exact readsAs_float x

theorem ReadsBack.string {s : String} (h : IsReadable written surrogates s.toList) :
    ReadsBack written surrogates room (.string s) where
  data := .string s
  starts layout depth text := by
    rw [write, quote_eq]
    exact .cons (by decide)
  closes layout depth text c hc rest e := by
    rw [write, quote_eq] at e
    have hquote := (List.cons.inj e).1
    subst hquote
    rcases hc with hc | hc <;> cases hc
  read layout depth fuel rest hfuel _ := by
    rw [write, quote_eq] at hfuel
    obtain ⟨fuel, rfl⟩ : ∃ n, fuel = n + 1 := ⟨fuel - 1, by simp at hfuel; omega⟩
    have hread := readText?_quote h rest
    rw [write]
    rw [quote_eq] at hread ⊢
    simp only [List.cons_append] at hread ⊢
    rw [readValue, hread]
    rfl

theorem ReadsBack.list {items : List Document}
    (h : ∀ item ∈ items, ReadsBack written surrogates room item) :
    ReadsBack written surrogates (room + 1) (.list items) where
  data := .list fun item hmem => (h item hmem).data
  starts layout depth text := by
    cases items <;> rw [write] <;> exact .cons (by decide)
  closes layout depth text c hc rest e := by
    have hopen : c = '[' := by
      cases items <;> rw [write] at e <;> exact (List.cons.inj e).1.symm
    subst hopen
    rcases hc with hc | hc <;> cases hc
  read layout depth fuel rest hfuel hrest := by
    cases items with
    | nil =>
      rw [write] at hfuel ⊢
      obtain ⟨fuel, rfl⟩ : ∃ n, fuel = n + 1 := ⟨fuel - 1, by simp at hfuel; omega⟩
      rw [readValue, if_neg (by omega), skipSpace_of_ends (.cons (by decide))]
      simp only [reread, rereadItems]
    | cons item items =>
      have hitem := h item (by simp)
      rw [write, write_append hitem.data, writeItems_append layout (depth + 1) fun x hx text =>
        write_append (h x (List.mem_cons_of_mem _ hx)).data layout (depth + 1) text] at hfuel
      simp only [List.length_append, List.length_cons] at hfuel
      obtain ⟨fuel, rfl⟩ : ∃ n, fuel = n + 1 := ⟨fuel - 1, by omega⟩
      have hitems : readItems surrogates fuel room (write written layout (depth + 1) item
          (writeItems written layout (depth + 1) items (layout.newline depth ++ ']' :: rest)))
            = .ok (rereadItems (item :: items), rest) :=
        readItems_write h (depth + 1) depth (by omega) rest
      rw [write, readValue, if_neg (by omega),
        skipSpace_newline layout (depth + 1) (hitem.starts layout (depth + 1) _)]
      split
      · rename_i e
        exact absurd e (hitem.closes layout (depth + 1) _ ']' (.inl rfl) _)
      · rw [Nat.add_sub_cancel, hitems]
        rfl

theorem ReadsBack.object {members : List (String × Document)}
    (hkeys : (members.map Prod.fst).Nodup)
    (h : ∀ member ∈ members, MemberReadsBack written surrogates room member) :
    ReadsBack written surrogates (room + 1) (.object members) where
  data := .object hkeys fun member hmem => (h member hmem).value.data
  starts layout depth text := by
    cases members <;> rw [write] <;> exact .cons (by decide)
  closes layout depth text c hc rest e := by
    have hopen : c = '\x7b' := by
      cases members <;> rw [write] at e <;> exact (List.cons.inj e).1.symm
    subst hopen
    rcases hc with hc | hc <;> cases hc
  read layout depth fuel rest hfuel hrest := by
    cases members with
    | nil =>
      rw [write] at hfuel ⊢
      obtain ⟨fuel, rfl⟩ : ∃ n, fuel = n + 1 := ⟨fuel - 1, by simp at hfuel; omega⟩
      rw [readValue, if_neg (by omega), skipSpace_of_ends (.cons (by decide))]
      simp only [reread, rereadMembers]
    | cons member members =>
      obtain ⟨key, value⟩ := member
      have hmember := h (key, value) (by simp)
      rw [write, write_append hmember.value.data,
        writeMembers_append layout (depth + 1) fun x hx text =>
          write_append (h x (List.mem_cons_of_mem _ hx)).value.data layout (depth + 1) text] at hfuel
      simp only [List.length_append, List.length_cons] at hfuel
      obtain ⟨fuel, rfl⟩ : ∃ n, fuel = n + 1 := ⟨fuel - 1, by omega⟩
      have hmembers : readMembers surrogates fuel room (quote written key ++ ':' :: ' ' ::
          write written layout (depth + 1) value (writeMembers written layout (depth + 1) members
            (layout.newline depth ++ '\x7d' :: rest)))
              = .ok (rereadMembers ((key, value) :: members), rest) :=
        readMembers_write hmember (fun member hmem => h member (List.mem_cons_of_mem _ hmem))
          (depth + 1) depth (by omega) rest
      have hquote : ∀ text, Ends isSpace (quote written key ++ text) := by
        intro text
        rw [quote_eq]
        exact .cons (by decide)
      have hentries : ofMembers (rereadMembers ((key, value) :: members))
          = .object (rereadMembers ((key, value) :: members)) := by
        rw [ofMembers, Table.entries_ofPairs]
        rwa [map_fst_rereadMembers]
      rw [write, readValue, if_neg (by omega), skipSpace_newline layout (depth + 1) (hquote _)]
      split
      · rename_i e
        rw [quote_eq] at e
        cases (List.cons.inj e).1
      · rw [Nat.add_sub_cancel, hmembers, reread, ← hentries]
        rfl

theorem readsBack_of_isData {value : Document} (h : IsData value)
    (hsavable : value.isSavable = true) (hdepth : value.depth ≤ room)
    (htexts : ∀ text ∈ value.texts, IsReadable written surrogates text.toList) :
    ReadsBack written surrogates room value := by
  induction h generalizing room with
  | null => exact .null
  | bool b => exact .bool b
  | int n => exact .int hsavable
  | float x => exact .float x
  | string s => exact .string (htexts s (by rw [texts]; exact List.mem_singleton_self s))
  | @list items _ ih =>
    obtain ⟨room, rfl⟩ : ∃ n, room = n + 1 := ⟨room - 1, by rw [depth] at hdepth; omega⟩
    rw [isSavable_list] at hsavable
    rw [depth_list_le] at hdepth
    rw [texts, forall_textsOfItems_iff] at htexts
    exact .list fun item hitem =>
      ih item hitem (hsavable item hitem) (hdepth item hitem) (htexts item hitem)
  | @object members hkeys _ ih =>
    obtain ⟨room, rfl⟩ : ∃ n, room = n + 1 := ⟨room - 1, by rw [depth] at hdepth; omega⟩
    rw [isSavable_object] at hsavable
    rw [depth_object_le] at hdepth
    rw [texts, forall_textsOfMembers_iff] at htexts
    exact .object hkeys fun member hmember =>
      ⟨(htexts member hmember).1, ih member hmember (hsavable member hmember)
        (hdepth member hmember) (htexts member hmember).2⟩

end

/-! ## Saved documents -/

section

variable {calls : Calls}

/-- The value is saved as another one, whatever room there is, if it is saved. -/
def SavedOnlyAs (calls : Calls) (value form : Document) : Prop :=
  ∀ room saved, value.savedWithin calls room = .ok saved → saved = form

section

variable {α : Type} {items : List α} {key : α → String} {f g : α → Document} {room : Nat}

theorem savedItems_eq_map {saved : List Document} (h : ∀ a ∈ items, SavedOnlyAs calls (f a) (g a))
    (hsaved : savedItems calls room (items.map f) = .ok saved) : saved = items.map g := by
  induction items generalizing saved with
  | nil => exact (Except.ok.inj hsaved).symm
  | cons a items ih =>
    obtain ⟨item, hitem, hsaved⟩ := bind_eq_ok.1 hsaved
    obtain ⟨rest, hrest, hsaved⟩ := bind_eq_ok.1 hsaved
    cases hsaved
    obtain ⟨hhead, htail⟩ := List.forall_mem_cons.1 h
    rw [hhead room item hitem, ih htail hrest, List.map_cons]

theorem savedMembers_eq_map {saved : List (String × Document)}
    (h : ∀ a ∈ items, SavedOnlyAs calls (f a) (g a))
    (hsaved : savedMembers calls room (items.map fun a => (key a, f a)) = .ok saved) :
    saved = items.map fun a => (key a, g a) := by
  induction items generalizing saved with
  | nil => exact (Except.ok.inj hsaved).symm
  | cons a items ih =>
    obtain ⟨value, hvalue, hsaved⟩ := bind_eq_ok.1 hsaved
    obtain ⟨rest, hrest, hsaved⟩ := bind_eq_ok.1 hsaved
    cases hsaved
    obtain ⟨hhead, htail⟩ := List.forall_mem_cons.1 h
    rw [hhead room value hvalue, ih htail hrest, List.map_cons]

end

theorem SavedOnlyAs.int {n : Int} : SavedOnlyAs calls (.int n) (.int n) := by
  intro room saved hsaved
  obtain ⟨_, -, hsaved⟩ := bind_eq_ok.1 hsaved
  dsimp only at hsaved
  by_cases hn : Text.isWritable n
  · rw [if_pos hn] at hsaved
    exact (Except.ok.inj hsaved).symm
  · rw [if_neg hn] at hsaved
    cases hsaved

theorem SavedOnlyAs.string {s : String} : SavedOnlyAs calls (.string s) (.string s) := by
  intro room saved hsaved
  obtain ⟨_, -, hsaved⟩ := bind_eq_ok.1 hsaved
  exact (Except.ok.inj hsaved).symm

section

variable {α : Type} {items : List α} {key : α → String} {f g : α → Document}

theorem SavedOnlyAs.list (h : ∀ a ∈ items, SavedOnlyAs calls (f a) (g a)) :
    SavedOnlyAs calls (.list (items.map f)) (.list (items.map g)) := by
  intro room saved hsaved
  obtain ⟨_, -, hsaved⟩ := bind_eq_ok.1 hsaved
  obtain ⟨_, -, hsaved⟩ := bind_eq_ok.1 hsaved
  obtain ⟨saved, hitems, hsaved⟩ := bind_eq_ok.1 hsaved
  cases hsaved
  rw [savedItems_eq_map h hitems]

theorem SavedOnlyAs.object (h : ∀ a ∈ items, SavedOnlyAs calls (f a) (g a)) :
    SavedOnlyAs calls (.object (items.map fun a => (key a, f a)))
      (.object (items.map fun a => (key a, g a))) := by
  intro room saved hsaved
  obtain ⟨_, -, hsaved⟩ := bind_eq_ok.1 hsaved
  obtain ⟨_, -, hsaved⟩ := bind_eq_ok.1 hsaved
  obtain ⟨saved, hmembers, hsaved⟩ := bind_eq_ok.1 hsaved
  cases hsaved
  rw [savedMembers_eq_map h hmembers]

end

/-- Data is saved as it is. -/
theorem IsData.savedOnlyAs {value : Document} (h : IsData value) :
    SavedOnlyAs calls value value := by
  induction h with
  | int n => exact SavedOnlyAs.int
  | @list items _ ih =>
    have hitems : SavedOnlyAs calls (.list (items.map id)) (.list (items.map id)) := .list ih
    rwa [List.map_id] at hitems
  | @object members _ _ ih =>
    have hmembers : SavedOnlyAs calls (.object (members.map fun member => (member.1, member.2)))
        (.object (members.map fun member => (member.1, member.2))) := .object ih
    rwa [List.map_id'] at hmembers
  | _ =>
    intro room saved hsaved
    obtain ⟨_, -, hsaved⟩ := bind_eq_ok.1 hsaved
    exact (Except.ok.inj hsaved).symm

end

variable [Room]

theorem parseWith_renderFileWith {written surrogates : Surrogates} {value : Document}
    (h : ReadsBack written surrogates Room.opened value) :
    parseWith surrogates (value.renderFileWith written).toList = .ok value.reread := by
  have htext : (value.renderFileWith written).toList = write written .indented 0 value ['\n'] := by
    rw [renderFileWith, String.toList_ofList]
  have hlength : (write written .indented 0 value []).length
      ≤ 2 * (write written .indented 0 value ['\n']).length + 2 := by
    rw [write_append h.data .indented 0 ['\n'], List.length_append]
    omega
  rw [parseWith, htext, skipSpace_of_ends (h.starts .indented 0 _),
    h.read .indented 0 _ ['\n'] hlength (.cons (by decide))]
  rfl

/-- A document of few levels that has been saved is read as it was, up to its numbers that are no
integers. -/
theorem parseWith_savedText (surrogates : Surrogates) {value : Document} {text : String}
    (h : IsData value) (hdepth : value.depth ≤ fewLevels) (hsaved : value.savedText = .ok text) :
    parseWith surrogates text.toList = .ok value.reread := by
  obtain ⟨saved, hform, htext⟩ := bind_eq_ok.1 hsaved
  obtain rfl := h.savedOnlyAs _ saved hform
  cases htext
  exact parseWith_renderFileWith (readsBack_of_isData h (isSavable_of_savedWithin hform)
    (Nat.le_trans hdepth Room.opened_few) fun text _ => isReadable_none surrogates text.toList)

end UsageCensus.Document
