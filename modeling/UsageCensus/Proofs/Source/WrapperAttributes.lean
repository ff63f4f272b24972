import UsageCensus.Proofs.Source.WrittenWrappers

/-!
# Wrappers with attached attributes

Between the head of a wrapper and its look `.attrs(...)` may stand, and the first closing
parenthesis behind it ends the attributes, whether or not parentheses were opened in them. So
attributes without a closing parenthesis change nothing, and behind any others the template is not
found: what stands behind their first closing parenthesis is read as a call, or not at all
(`styledUsages_attributes`).
-/

namespace UsageCensus.Source.Styled

open UsageCensus.Text

/-! ## One wrapper -/

section

variable {components : List String} {look? : List Char → Option (List Char × List Char)}
  {tail : List Char}

/-- A wrapper whose head stands at the start, in front of a text without wrappers. -/
theorem usagesBy_head (hnames : ∀ name ∈ components, IsTagName name) (head : WrittenHead components)
    (hsuffix : ∀ inner rest, look? (lookBehind tail) = some (inner, rest) → rest <:+ tail)
    (hsilent : Silent (read? (searchOrder components) look?) tail []) :
    usagesBy look? components (head.text ++ tail)
      = (look? (lookBehind tail)).toList.map fun look => .behind [] head.target look.1 := by
  unfold usagesBy
  rw [search_forward]
  cases hlook : look? (lookBehind tail) with
  | none =>
    rw [head.found_text_of_none hnames hlook, found_of_silent_nil hsilent]
    rfl
  | some look =>
    obtain ⟨inner, rest⟩ := look
    obtain ⟨front, rfl⟩ := hsuffix inner rest hlook
    rw [head.found_text hnames hlook, found_of_silent_nil hsilent.behind]
    exact congrArg (· :: []) (StyledUsage.ofFound_behind [] _ _ head.target inner)

/-! ## What is left of a text -/

theorem exists_skipTypeArguments (text : List Char) : ∃ pre,
    text = pre ++ skipTypeArguments text ∧ (pre = [] ∨ pre.getLast? = some '>') := by
  unfold skipTypeArguments
  split
  case h_1 rest =>
    cases hrest : rest.dropWhile (· != '>') with
    | nil => exact ⟨[], rfl, .inl rfl⟩
    | cons c behind =>
      have hc : c = '>' := by
        have hends := ends_dropWhile (· != '>') rest
        rw [hrest] at hends
        simpa using hends.head
      subst hc
      refine ⟨'<' :: (rest.takeWhile (· != '>') ++ ['>']), ?_, .inr ?_⟩
      · have hsplit := List.takeWhile_append_dropWhile (p := (· != '>')) (l := rest)
        rw [hrest] at hsplit
        show _ = '<' :: (rest.takeWhile (· != '>') ++ ['>'] ++ behind)
        rw [List.append_assoc, List.singleton_append, hsplit]
      · rw [← List.cons_append, List.getLast?_append]
        rfl
  case h_2 => exact ⟨[], rfl, .inl rfl⟩

theorem isSuffix_skipAttrs (text : List Char) : skipAttrs text <:+ text := by
  unfold skipAttrs
  split
  · rename_i rest hrest
    cases hclose : one? (· == ')') (rest.dropWhile (· != ')')) with
    | none => exact List.suffix_refl text
    | some behind =>
      exact (isSuffix_of_one? hclose).trans
        ((List.dropWhile_suffix _).trans (isSuffix_of_after? hrest))
  · exact List.suffix_refl text

theorem isSuffix_lookBehind (text : List Char) : lookBehind text <:+ text := by
  have hskip : ∀ text, skipTypeArguments text <:+ text := by
    intro text
    obtain ⟨pre, htext, -⟩ := exists_skipTypeArguments text
    exact ⟨pre, htext.symm⟩
  exact (hskip _).trans ((isSuffix_skipAttrs _).trans (hskip _))

theorem readTemplate?_eq_some {text css rest : List Char}
    (h : readTemplate? text = some (css, rest)) : text = '\x60' :: (css ++ '\x60' :: rest) := by
  unfold readTemplate? at h
  obtain ⟨behind, hopener, h⟩ := Option.bind_eq_some_iff.1 h
  obtain ⟨closed, hcloser, h⟩ := Option.bind_eq_some_iff.1 h
  cases h
  obtain ⟨c, hc, rfl⟩ := one?_eq_some hopener
  obtain ⟨d, hd, hsplit⟩ := one?_eq_some hcloser
  obtain rfl := beq_iff_eq.1 hc
  obtain rfl := beq_iff_eq.1 hd
  rw [← hsplit, List.takeWhile_append_dropWhile]

theorem readCall?_eq_some {text body rest : List Char} (h : readCall? text = some (body, rest)) :
    text = '(' :: rest := by
  unfold readCall? at h
  obtain ⟨behind, hopener, h⟩ := Option.bind_eq_some_iff.1 h
  cases h
  obtain ⟨c, hc, rfl⟩ := one?_eq_some hopener
  rw [beq_iff_eq.1 hc]

/-- A wrapper behind which no other one begins is found once, by the look that is read behind its
head: a template, or else a call. -/
theorem styledUsages_head (hnames : ∀ name ∈ components, IsTagName name)
    (head : WrittenHead components)
    (hsilent : ∀ look? : List Char → Option (List Char × List Char),
      Silent (read? (searchOrder components) look?) tail []) :
    styledUsages components (head.text ++ tail)
      = ((readTemplate? (lookBehind tail)).or (readCall? (lookBehind tail))).toList.map fun look =>
        .behind [] head.target look.1 := by
  have htemplate : usagesBy readTemplate? components (head.text ++ tail)
      = (readTemplate? (lookBehind tail)).toList.map fun look => .behind [] head.target look.1 := by
    refine usagesBy_head hnames head (fun inner rest h => ?_) (hsilent _)
    refine List.IsSuffix.trans ?_ (isSuffix_lookBehind tail)
    rw [readTemplate?_eq_some h]
    exact ⟨'\x60' :: (inner ++ ['\x60']), by simp⟩
  have hcall : usagesBy readCall? components (head.text ++ tail)
      = (readCall? (lookBehind tail)).toList.map fun look => .behind [] head.target look.1 := by
    refine usagesBy_head hnames head (fun inner rest h => ?_) (hsilent _)
    refine List.IsSuffix.trans ?_ (isSuffix_lookBehind tail)
    rw [readCall?_eq_some h]
    exact List.suffix_cons '(' rest
  rw [styledUsages_eq (List.ne_nil_of_mem head.known) hnames, htemplate, hcall]
  cases readTemplate? (lookBehind tail) with
  | none => simp
  | some look =>
    cases readCall? (lookBehind tail) with
    | none => rfl
    | some call => simp [StyledUsage.behind]

end

/-! ## Attributes in front of a template -/

/-- The text with which attributes begin. -/
def attributesOpening : List Char := ['.', 'a', 't', 't', 'r', 's', '(']

/-- Attributes as they are written. -/
def attributesText (attributes : List Char) : List Char :=
  attributesOpening ++ (attributes ++ [')'])

/-- A template as it is written. -/
def templateText (css : List Char) : List Char := '\x60' :: (css ++ ['\x60'])

/-- The first closing parenthesis ends the attributes. -/
theorem lookBehind_attributes {inside : List Char} (h : ')' ∉ inside) (rest : List Char) :
    lookBehind (attributesOpening ++ (inside ++ ')' :: rest)) = skipTypeArguments rest := by
  have hskip : skipAttrs (attributesOpening ++ (inside ++ ')' :: rest)) = rest := by
    have hafter : after? ['.', 'a', 't', 't', 'r', 's', '(']
        (attributesOpening ++ (inside ++ ')' :: rest)) = some (inside ++ ')' :: rest) :=
      after?_append attributesOpening _
    rw [skipAttrs, hafter]
    dsimp only
    rw [dropWhile_ne_append h]
    rfl
  exact congrArg skipTypeArguments hskip

/-- A template is not read behind text that is left of the attributes. -/
theorem readTemplate?_behind_attributes {behind css : List Char} (hbehind : '\x60' ∉ behind)
    (hcss : '\x60' ∉ css) :
    readTemplate? (skipTypeArguments (behind ++ ')' :: templateText css)) = none := by
  refine Option.eq_none_iff_forall_ne_some.2 ?_
  rintro ⟨inner, rest⟩ hread
  obtain ⟨pre, htext, hpre⟩ := exists_skipTypeArguments (behind ++ ')' :: templateText css)
  rw [readTemplate?_eq_some hread] at htext
  -- There are two backticks in all, and both are read.
  have hfree : '\x60' ∉ pre := by
    have hcount := congrArg (List.count '\x60') htext
    simp only [templateText, List.count_append, List.count_cons, List.count_nil, beq_self_eq_true,
      if_true, beq_iff_eq, Char.reduceEq, if_false, List.count_eq_zero.2 hbehind,
      List.count_eq_zero.2 hcss] at hcount
    exact List.count_eq_zero.1 (by omega)
  have hsplit : (behind ++ [')']) ++ '\x60' :: (css ++ ['\x60'])
      = pre ++ '\x60' :: (inner ++ '\x60' :: rest) := by
    simpa [templateText] using htext
  have hclosing : behind ++ [')'] = pre := (append_cons_inj (by simpa using hbehind) hfree hsplit).1
  rw [← hclosing] at hpre
  simp at hpre

/-- No wrapper begins in attributes and the template behind them. -/
theorem silent_attributes {attributes css : List Char} (hattributes : ¬ opening <:+: attributes)
    (hcss : '\x60' ∉ css) (hplain : ¬ opening <:+: css) (names : List String)
    (look? : List Char → Option (List Char × List Char)) :
    Silent (read? names look?) (attributesText attributes ++ templateText css) [] := by
  have hopening : ¬ opening <:+: attributesOpening ++ attributes := by
    simpa [attributesOpening, opening, openingWord, List.infix_cons_iff, List.cons_prefix_cons]
      using hattributes
  have hsilent : Silent (read? names look?) (attributesOpening ++ attributes ++ [')'])
      (templateText css ++ []) := silent_of_no_opening (by decide) hopening
  rw [attributesText, ← List.append_assoc]
  exact silent_append hsilent
    (WrittenLook.silent_text ⟨.template, css, hcss, hplain⟩ names look? [])

/-- Attributes without a closing parenthesis change nothing about a template. Behind others it is
not found: a call is, if one stands behind the first parenthesis that is closed in them. -/
theorem styledUsages_attributes {components : List String}
    (hnames : ∀ name ∈ components, IsTagName name) (head : WrittenHead components)
    (attributes css : List Char) (hunquoted : '\x60' ∉ attributes)
    (hattributes : ¬ opening <:+: attributes) (hcss : '\x60' ∉ css) (hplain : ¬ opening <:+: css) :
    styledUsages components (head.text ++ templateText css) = [.behind [] head.target css] ∧
    (')' ∉ attributes →
      styledUsages components (head.text ++ (attributesText attributes ++ templateText css))
        = [.behind [] head.target css]) ∧
    ∀ inside behind, attributes = inside ++ ')' :: behind → ')' ∉ inside →
      styledUsages components (head.text ++ (attributesText attributes ++ templateText css))
        = (readCall? (skipTypeArguments (behind ++ ')' :: templateText css))).toList.map fun call =>
          .behind [] head.target call.1 := by
  have htemplate : readTemplate? (templateText css) = some (css, []) := readTemplate?_text hcss []
  have hsilent := silent_attributes hattributes hcss hplain (searchOrder components)
  have hattached := styledUsages_head hnames head hsilent
  refine ⟨?_, fun hopen => ?_, fun inside behind hsplit hinside => ?_⟩
  · have hlook : lookBehind (templateText css) = templateText css :=
      LookForm.template.lookBehind_opener _
    have hnone : ∀ look? : List Char → Option (List Char × List Char),
        Silent (read? (searchOrder components) look?) (templateText css) [] := fun look? =>
      WrittenLook.silent_text ⟨.template, css, hcss, hplain⟩ (searchOrder components) look? []
    rw [styledUsages_head hnames head hnone, hlook, htemplate]
    rfl
  · have hlook : lookBehind (attributesText attributes ++ templateText css) = templateText css := by
      rw [attributesText, List.append_assoc, List.append_assoc]
      exact lookBehind_attributes hopen (templateText css)
    rw [hattached, hlook, htemplate]
    rfl
  · have hlook : lookBehind (attributesText attributes ++ templateText css)
        = skipTypeArguments (behind ++ ')' :: templateText css) := by
      rw [attributesText, List.append_assoc, List.append_assoc, hsplit, List.append_assoc]
      exact lookBehind_attributes hinside _
    have hbehind : '\x60' ∉ behind := by
      rw [hsplit] at hunquoted
      simp at hunquoted
      exact hunquoted.2
    rw [hattached, hlook, readTemplate?_behind_attributes hbehind hcss, Option.none_or]

/-- The head `const V = styled(Card)`. -/
def cardHead : WrittenHead ["Card"] :=
  .spaced false ['c', 'o', 'n', 's', 't'] (by decide)
    ⟨['V'], forall_mem_of_all (by decide), by decide⟩ "Card" (List.mem_singleton_self "Card")

/-- A name is attached, and a call. -/
theorem styledUsages_card_attributes :
    styledUsages ["Card"]
        (cardHead.text ++ (attributesText ['p'] ++ templateText "color: red".toList))
      = [⟨⟨"Card", some "V"⟩, "color: red", ["color"], 1⟩] ∧
    styledUsages ["Card"]
        (cardHead.text ++ (attributesText ['f', '(', ')'] ++ templateText "color: red".toList))
      = [] := by
  have hnames : ∀ name ∈ ["Card"], IsTagName name := by decide
  obtain ⟨-, hname, -⟩ := styledUsages_attributes hnames cardHead ['p'] "color: red".toList
    (by decide) (by decide) (by decide) (by decide)
  obtain ⟨-, -, hcall⟩ := styledUsages_attributes hnames cardHead ['f', '(', ')']
    "color: red".toList (by decide) (by decide) (by decide) (by decide)
  refine ⟨(hname (by decide)).trans (by decide +kernel), ?_⟩
  exact (hcall ['f', '('] [] rfl (by decide)).trans (by decide +kernel)

/-- The attributes are balanced and hold no backtick and no wrapper, and yet hide the template. -/
theorem template_hidden_by_attributes :
    IsNested "f()".toList ∧ '\x60' ∉ "f()".toList ∧ ¬ opening <:+: "f()".toList ∧
    styledUsages ["Card"] "const V = styled(Card)`color: red`".toList
      = [⟨⟨"Card", some "V"⟩, "color: red", ["color"], 1⟩] ∧
    styledUsages ["Card"] "const V = styled(Card).attrs(f())`color: red`".toList = [] := by
  refine ⟨by decide, by decide, by decide, ?_, ?_⟩ <;> decide +kernel

end UsageCensus.Source.Styled
