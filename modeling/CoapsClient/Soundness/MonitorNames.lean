import CoapsClient.Soundness.MonitorCut

/-! # Names with commas

The PLMN is searched behind the second comma. If a name has a comma, that is in a name or in front of the short one. In a
name there is no quote, or the one that ends the name. The short name is taken for the PLMN, the PLMN for the TAC, and at
the TAC nothing is read anymore. A text that is cut is the start of a longer one.
-/

namespace CoapsClient.ModemMonitor

open Machine (isXdigit_of_isDigit)
open ShCmd (Text)
open DtlsClient (parseNextLong)
open Modem (parseNextChar parseNextChars parseNextQtext parseNextChar_append)

section Names

variable {field cur rest left right : Text} {sep : Char} {scan : Scan} {network : Network}

private theorem prefix_append_cases (part : cur <+: left ++ right) :
    cur <+: left ∨ ∃ more, cur = left ++ more ∧ more <+: right := by
  obtain ⟨behind, same⟩ := part
  rcases List.append_eq_append_iff.mp same with ⟨more, rfl, -⟩ | ⟨more, rfl, rfl⟩
  · exact .inl (List.prefix_append cur more)
  · exact .inr ⟨more, rfl, List.prefix_append more behind⟩

private theorem prefix_cons_cases {first : Char} (part : cur <+: first :: rest) :
    cur = [] ∨ ∃ more, cur = first :: more ∧ more <+: rest := by
  cases cur with
  | nil => exact .inl rfl
  | cons char more =>
    obtain ⟨rfl, behind⟩ := List.cons_prefix_cons.mp part
    exact .inr ⟨more, rfl, behind⟩

/-- A parameter is skipped also in a text that is cut. -/
private theorem parseNextChar_prefix (free : sep ∉ field) (part : cur <+: field ++ sep :: rest) :
    parseNextChar cur sep <+: rest := by
  have nothing : ∀ cur : Text, sep ∉ cur → parseNextChar cur sep = [] := by
    intro cur free
    have whole : cur.dropWhile (· ≠ sep) = [] := by
      refine List.dropWhile_eq_nil_iff.mpr fun char found => decide_eq_true ?_
      rintro rfl
      exact free found
    rw [parseNextChar, whole]
    rfl
  rcases prefix_append_cases part with short | ⟨more, rfl, behind⟩
  · rw [nothing cur fun found => free (short.subset found)]
    exact List.nil_prefix
  · rcases prefix_cons_cases behind with rfl | ⟨more, rfl, behind⟩
    · rw [List.append_nil, nothing field free]
      exact List.nil_prefix
    · rwa [parseNextChar_append free]

/-- The PLMN is read where a quote is. -/
private theorem plmn_provider : (scan.plmn cur).temp.provider =
    if (parseNextChars cur ',' 2).head? = some '"' then (parseNextQtext (parseNextChars cur ',' 2) '"' 7).1
    else scan.temp.provider := by
  unfold Scan.plmn
  dsimp only
  split <;> rfl

/-- At the quote that ends a name, only the comma behind it is read. -/
private theorem length_provider (plain : Plain field) (part : cur <+: field ++ '"' :: ',' :: '"' :: rest)
    (quote : cur.head? = some '"') : (parseNextQtext cur '"' 7).1.length ≤ 1 := by
  obtain ⟨more, rfl⟩ := List.head?_eq_some_iff.mp quote
  cases field with
  | cons first field =>
    obtain ⟨rfl, -⟩ := List.cons_prefix_cons.mp part
    exact absurd rfl (plain '"' List.mem_cons_self).2
  | nil =>
    obtain ⟨-, behind⟩ := List.cons_prefix_cons.mp part
    rcases prefix_cons_cases behind with rfl | ⟨more, rfl, last⟩
    · decide
    rcases prefix_cons_cases last with rfl | ⟨more, rfl, -⟩
    · decide
    · have comma : Plain [','] := by
        intro char found
        obtain rfl := List.mem_singleton.mp found
        decide
      have read := @parseNextQtext_quoted [','] more 7 comma
      rw [List.singleton_append] at read
      rw [read]
      exact Nat.le_refl 1

/-- Behind a comma in a name, the PLMN is not found: there is no quote, or the one that ends the name. -/
private theorem plmn_lost (plain : Plain field) (none : scan.temp.provider = [])
    (part : parseNextChars cur ',' 2 <+: field ++ '"' :: ',' :: '"' :: rest) :
    (scan.plmn cur).temp.provider ≠ network.plmn := by
  have short : (scan.plmn cur).temp.provider.length ≤ 1 := by
    rw [plmn_provider]
    split
    · next quote => exact length_provider plain part quote
    · rw [none]
      exact Nat.zero_le 1
  intro same
  rw [same] at short
  have long := network.plmn_length
  omega

/-- A text that begins with a quote has no number. -/
private theorem long_quote {set : Int → Scan → Scan} (part : cur <+: '"' :: rest) :
    (scan.long set cur).n.head? ≠ some ',' := by
  rcases prefix_cons_cases part with rfl | ⟨more, rfl, -⟩
  · rw [long_minus (List.forall_mem_nil _)]
    exact nofun
  · have none : parseNextLong ('"' :: more) scan.value = (scan.value, '"' :: more) := rfl
    have same : (scan.long set ('"' :: more)).n = '"' :: more := by
      unfold Scan.long
      rw [none]
      exact congrArg Scan.n (if_pos rfl)
    rw [same]
    exact fun comma => absurd (Option.some_inj.mp comma) (by decide)

/-- Digits behind a quote, up to the end of the text. -/
private theorem longQtext_digits {set : Int → Scan → Scan} {digits : Text}
    (place : ∀ value scan, (set value scan).n = scan.n)
    (decimal : ∀ digit ∈ digits, digit.isDigit = true) : (scan.longQtext set ('"' :: digits)).n.head? ≠ some ',' := by
  cases digits with
  | nil =>
    have same : (scan.longQtext set ['"']).n = ['"'] := rfl
    rw [same]
    decide
  | cons first digits =>
    have read := @strtol16_digits (first :: digits) [] (fun digit found => isXdigit_of_isDigit (decimal digit found))
      (List.cons_ne_nil _ _) quoteOrEnd_nil
    rw [List.append_nil] at read
    have same : (scan.longQtext set ('"' :: first :: digits)).n = [] := by
      simp only [Scan.longQtext, parseNextLongQtext16, parseNextLongText16, List.head?_cons, if_true, skipSep_cons, read]
      exact (congrArg Scan.n (if_neg (List.cons_ne_nil _ _))).trans (place _ _)
    rw [same, List.head?_nil]
    exact (Option.some_ne_none _).symm

/-- A PLMN is taken for the TAC, and no parameter is behind it if it is cut. -/
private theorem longQtext_plmn {set : Int → Scan → Scan} (place : ∀ value scan, (set value scan).n = scan.n)
    (part : cur <+: '"' :: (network.plmn ++ '"' :: rest)) :
    (scan.longQtext set cur).n <+: rest ∨ (scan.longQtext set cur).n.head? ≠ some ',' := by
  have decimal := network.plmn_digits
  rcases prefix_cons_cases part with rfl | ⟨digits, rfl, behind⟩
  · exact .inl List.nil_prefix
  rcases prefix_append_cases behind with short | ⟨more, rfl, later⟩
  · exact .inr (longQtext_digits place fun digit found => decimal digit (short.subset found))
  rcases prefix_cons_cases later with rfl | ⟨more, rfl, last⟩
  · rw [List.append_nil]
    exact .inr (longQtext_digits place decimal)
  · have some : network.plmn ≠ [] := by
      have length := network.plmn_length
      rintro none
      rw [none, List.length_nil] at length
      omega
    rw [Scan.longQtext_quoted (fun digit found => isXdigit_of_isDigit (decimal digit found)) some, place]
    exact .inl last

/-- Behind a text in quotes, also in a text that is cut. -/
private theorem plmn_behind {short : Text} (plain : Plain short)
    (part : parseNextChars cur ',' 2 <+: '"' :: (short ++ '"' :: rest)) : (scan.plmn cur).n <+: rest := by
  unfold Scan.plmn
  dsimp only
  generalize parseNextChars cur ',' 2 = landing at part ⊢
  rcases prefix_cons_cases part with rfl | ⟨more, rfl, behind⟩
  · exact List.nil_prefix
  · rw [if_pos List.head?_cons]
    have free : '"' ∉ short := fun found => (plain '"' found).2 rfl
    have same : (parseNextQtext ('"' :: more) '"' 7).2 = parseNextChar more '"' := by
      rw [parseNextChar, List.drop_one]
      rfl
    dsimp only
    rw [same]
    exact parseNextChar_prefix free behind

private theorem plmn_rsrp : (scan.plmn cur).rsrp = scan.rsrp := by
  unfold Scan.plmn
  dsimp only
  split <;> rfl

private theorem setTac_keeps (value : Int) (scan : Scan) :
    (scan.setTac value).n = scan.n ∧ (scan.setTac value).rsrp = scan.rsrp := by
  unfold Scan.setTac
  split <;> exact ⟨rfl, rfl⟩

private theorem setMode_rsrp (value : Int) (scan : Scan) : (scan.setMode value).rsrp = scan.rsrp := by
  unfold Scan.setMode
  split_ifs <;> rfl

/-- At a quote in the place of the mode, nothing is read anymore. -/
private theorem cell_stuck (part : scan.n <+: ',' :: '"' :: (network.plmn ++ '"' :: ',' :: '"' :: rest)) :
    scan.cell.rsrp = scan.rsrp := by
  have tac : (scan.next (Scan.longQtext fun value scan => scan.setTac value)).n <+: ',' :: '"' :: rest ∨
      (scan.next (Scan.longQtext fun value scan => scan.setTac value)).n.head? ≠ some ',' := by
    rcases prefix_cons_cases part with none | ⟨more, place, behind⟩
    · exact .inr (by rw [Scan.next_stop (by rw [none]; exact nofun), none]; exact nofun)
    · rw [Scan.next_comma place]
      exact longQtext_plmn (fun value scan => (setTac_keeps value scan).1) behind
  have mode : ((scan.next (Scan.longQtext fun value scan => scan.setTac value)).next
      (Scan.long fun value scan => scan.setMode value)).n.head? ≠ some ',' := by
    rcases tac with first | stop
    · rcases prefix_cons_cases first with none | ⟨more, place, behind⟩
      · rw [Scan.next_stop (by rw [none]; exact nofun), none]
        exact nofun
      · rw [Scan.next_comma place]
        exact long_quote behind
    · rwa [Scan.next_stop stop]
  unfold Scan.cell
  simp only [Scan.next_stop mode]
  rw [Scan.long_next_keeps (f := (·.rsrp)) (fun _ _ _ => rfl) setMode_rsrp,
    Scan.longQtext_next_keeps (f := (·.rsrp)) (fun _ _ _ => rfl) fun value scan => (setTac_keeps value scan).2]

private theorem plain_behind {name front back : Text} {char : Char} (plain : Plain name)
    (same : name = front ++ char :: back) :
    Plain back := fun other found => plain other (same ▸ List.mem_append_right front (List.mem_cons_of_mem char found))

/-- A comma in a name moves the parameters: the PLMN is not found, or there is no RSRP. -/
private theorem plmn_or_rsrp_lost (comma : ',' ∈ network.fullName ∨ ',' ∈ network.shortName)
    (noProvider : scan.temp.provider = [])
    (noRsrp : scan.rsrp = noneSignalValue) (part : cur <+: namesText network (cellText network rest)) :
    (scan.plmn cur).temp.provider ≠ network.plmn ∨ (scan.plmn cur).cell.rsrp = noneSignalValue := by
  have quoteFree : ∀ {name : Text}, ',' ∉ name → ',' ∉ '"' :: name := fun free found =>
    (List.mem_cons.mp found).elim (fun same => absurd same (by decide)) free
  have quoteEnd : ∀ {name : Text}, ',' ∉ name → ',' ∉ name ++ ['"'] := fun free found =>
    (List.mem_append.mp found).elim free fun quote => absurd (List.mem_singleton.mp quote) (by decide)
  by_cases full : ',' ∈ network.fullName
  · obtain ⟨first, behind, name, free⟩ := List.eq_append_cons_of_mem full
    have once : parseNextChar cur ',' <+: behind ++ '"' :: ',' :: '"' :: (network.shortName ++ '"' :: ',' :: '"' ::
        (network.plmn ++ '"' :: cellText network rest)) := by
      refine parseNextChar_prefix (quoteFree free) ?_
      rwa [namesText, name, List.append_assoc, List.cons_append] at part
    by_cases again : ',' ∈ behind
    · obtain ⟨second, last, split, free⟩ := List.eq_append_cons_of_mem again
      have landed : parseNextChars cur ',' 2 <+: last ++ '"' :: ',' :: '"' :: (network.shortName ++ '"' :: ',' :: '"' ::
          (network.plmn ++ '"' :: cellText network rest)) := by
        rw [parseNextChars_two]
        rw [split, List.append_assoc] at once
        exact parseNextChar_prefix free once
      exact .inl (plmn_lost (plain_behind (plain_behind network.fullName_plain name) split) noProvider landed)
    · right
      have landed : parseNextChars cur ',' 2 <+: '"' :: (network.shortName ++ '"' :: ',' :: '"' ::
          (network.plmn ++ '"' :: cellText network rest)) := by
        rw [parseNextChars_two]
        refine parseNextChar_prefix (quoteEnd again) ?_
        rwa [List.append_assoc]
      rw [cell_stuck (plmn_behind network.shortName_plain landed), plmn_rsrp, noRsrp]
  · obtain ⟨first, behind, name, free⟩ := List.eq_append_cons_of_mem (comma.resolve_left full)
    have once : parseNextChar cur ',' <+: '"' :: (network.shortName ++ '"' :: ',' :: '"' ::
        (network.plmn ++ '"' :: cellText network rest)) := by
      refine parseNextChar_prefix (quoteEnd (quoteFree full)) ?_
      rwa [List.append_assoc]
    have landed : parseNextChars cur ',' 2 <+: behind ++ '"' :: ',' :: '"' ::
        (network.plmn ++ '"' :: cellText network rest) := by
      rw [parseNextChars_two]
      rw [name, List.append_assoc] at once
      exact parseNextChar_prefix (quoteFree free) once
    exact .inl (plmn_lost (plain_behind network.shortName_plain name) noProvider landed)

/-- With a comma in a name, an answer is not read. -/
theorem read_comma {record : Record} {size : ℕ} (some : record.network = some network) (three : 3 ≤ size)
    (comma : ',' ∈ network.fullName ∨ ',' ∈ network.shortName) : ¬ network.Read (readMonitor (record.text.take size)) := by
  intro read
  have registered : isRegistered record.status = true := record.registered (by rw [some]; rfl)
  have short := @length_status record.status
  have text : record.text = number (statusNumber record.status) ++ ',' :: namesText network (cellText network
      (',' :: (number network.snr.index ++ timersText network.timers))) := by
    rw [text_eq some, headText_eq, List.append_assoc, frontText_append, List.cons_append]
  obtain ⟨count, same⟩ : ∃ count, size - (number (statusNumber record.status)).length = count + 1 :=
    ⟨size - (number (statusNumber record.status)).length - 1, by omega⟩
  rw [text, List.take_append, List.take_of_length_le (by omega), same, List.take_succ_cons,
    readMonitor_registered record.status_proper registered] at read
  have provider := read.provider
  have rsrp := read.rsrp
  rw [Scan.network_eq.1, Scan.cell_provider] at provider
  rw [Scan.network_eq.2.1] at rsrp
  have part := List.take_prefix count (namesText network (cellText network
    (',' :: (number network.snr.index ++ timersText network.timers))))
  rcases @plmn_or_rsrp_lost _ _ (begun record.status _) network comma rfl rfl part with lost | lost
  · exact lost provider
  · exact network.rsrp.level_ne (rsrp.symm.trans lost)

end Names

end CoapsClient.ModemMonitor
