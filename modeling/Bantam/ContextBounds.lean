import Bantam.SourceContext

/-! The limits of the source context: what is excerpted of a file, and how much of all files. -/
namespace Bantam

/-! Bytes. -/

section
variable {s : List Char} {available limit : Nat}

theorem utf8Length_takeBytes : Text.utf8Length (takeBytes available s) ≤ available := by
  induction s generalizing available with
  | nil => exact Nat.zero_le _
  | cons c s ih =>
    rw [takeBytes]
    split_ifs with hfits
    · rw [Text.utf8Length_cons]
      have hrest := @ih (available - c.utf8Size)
      omega
    · exact Nat.zero_le _

theorem takeBytes_initial : takeBytes available s <+: s := by
  induction s generalizing available with
  | nil => exact List.prefix_refl []
  | cons c s ih =>
    rw [takeBytes]
    split_ifs with hfits
    · exact List.cons_prefix_cons.mpr ⟨rfl, ih⟩
    · exact List.nil_prefix

/-- The bytes that the truncation takes. -/
def markerBytes : Nat := Text.utf8Length ('\n' :: truncatedLine)

theorem utf8Length_boundedText (h : markerBytes ≤ limit) :
    Text.utf8Length (boundedText s limit) ≤ limit := by
  unfold boundedText
  split_ifs with hfits
  · exact hfits
  · dsimp only
    have htaken := @utf8Length_takeBytes s (limit - markerBytes)
    rw [Text.utf8Length_append]
    rw [markerBytes] at h htaken
    omega
end

/-! Lines. -/

/-- An excerpt of numbered lines: of whole lines, or of whole lines and the beginning of one more
with the mark of the truncation on a line of its own. -/
def IsExcerpt (numbered : List (List Char)) (excerpt : List Char) : Prop :=
  ∃ whole, (∀ line ∈ whole, line ∈ numbered) ∧
    (excerpt.splitOn '\n' = whole ∨
      ∃ line ∈ numbered, ∃ cut, cut <+: line ∧
        excerpt.splitOn '\n' = whole ++ [cut, truncatedLine])

section
variable {lines : List (List Char)} {text : List Char} {limit : Nat}

/-- The beginning of joined lines is whole lines and the beginning of one more. -/
theorem initial_joinLines {cut : List Char} (hne : lines ≠ []) (h : cut <+: Text.joinLines lines) :
    ∃ whole line part, (∀ l ∈ whole, l ∈ lines) ∧ line ∈ lines ∧ part <+: line ∧
      cut = Text.joinLines (whole ++ [part]) := by
  induction lines generalizing cut with
  | nil => exact absurd rfl hne
  | cons l rest ih =>
    cases rest with
    | nil =>
      have hjoin : Text.joinLines [l] = l := by simp [Text.joinLines, List.intercalate]
      rw [hjoin] at h
      exact ⟨[], l, cut, List.forall_mem_nil _, List.mem_singleton_self l, h, by
        simp [Text.joinLines, List.intercalate]⟩
    | cons m rest =>
      have hjoin : Text.joinLines (l :: m :: rest) = l ++ '\n' :: Text.joinLines (m :: rest) :=
        Text.intercalate_cons_cons ['\n'] l m rest
      rw [hjoin] at h
      obtain ⟨after, hafter⟩ := h
      -- the cut is in the first line, or behind the line break after it
      obtain ⟨more, hl, -⟩ | ⟨more, hcut, hrest⟩ := List.append_eq_append_iff.mp hafter
      · exact ⟨[], l, cut, List.forall_mem_nil _, List.mem_cons_self, ⟨more, hl.symm⟩, by
          simp [Text.joinLines, List.intercalate]⟩
      · cases more with
        | nil =>
          rw [List.append_nil] at hcut
          exact ⟨[], l, cut, List.forall_mem_nil _, List.mem_cons_self, hcut ▸ List.prefix_refl l, by
            simp [Text.joinLines, List.intercalate]⟩
        | cons c more =>
          obtain ⟨rfl, hmore⟩ := List.cons.inj hrest
          obtain ⟨whole, line, part, hwhole, hline, hpart, rfl⟩ :=
            ih (List.cons_ne_nil m rest) ⟨after, hmore.symm⟩
          refine ⟨l :: whole, line, part, ?_, List.mem_cons_of_mem l hline, hpart, ?_⟩
          · exact List.forall_mem_cons.mpr ⟨List.mem_cons_self, fun x hx =>
              List.mem_cons_of_mem l (hwhole x hx)⟩
          · rw [hcut]
            cases hboth : whole ++ [part] with
            | nil => simp at hboth
            | cons first others =>
              rw [List.cons_append, hboth]
              exact (Text.intercalate_cons_cons ['\n'] l first others).symm

/-- One more line. -/
theorem joinLines_snoc (hne : lines ≠ []) (line : List Char) :
    Text.joinLines (lines ++ [line]) = Text.joinLines lines ++ '\n' :: line := by
  induction lines with
  | nil => exact absurd rfl hne
  | cons l rest ih =>
    cases rest with
    | nil => simp [Text.joinLines, List.intercalate]
    | cons m rest =>
      have hrest : Text.joinLines (m :: (rest ++ [line])) =
          Text.joinLines (m :: rest) ++ '\n' :: line := ih (List.cons_ne_nil m rest)
      have hleft : Text.joinLines (l :: m :: (rest ++ [line])) =
          l ++ ('\n' :: Text.joinLines (m :: (rest ++ [line]))) :=
        Text.intercalate_cons_cons ['\n'] l m (rest ++ [line])
      have hright : Text.joinLines (l :: m :: rest) = l ++ ('\n' :: Text.joinLines (m :: rest)) :=
        Text.intercalate_cons_cons ['\n'] l m rest
      rw [List.cons_append, List.cons_append, hleft, hright, hrest, List.append_assoc,
        List.cons_append]

theorem splitOn_joinLines (hne : lines ≠ []) (h : ∀ l ∈ lines, '\n' ∉ l) :
    (Text.joinLines lines).splitOn '\n' = lines :=
  List.splitOn_intercalate '\n' h hne

/-- No line has a line break in it. -/
theorem mem_splitLinesFrom {line l : List Char} (hline : ∀ c ∈ line, Text.isLineBreak c = false)
    (h : l ∈ Text.splitLinesFrom line text) : ∀ c ∈ l, Text.isLineBreak c = false := by
  fun_induction Text.splitLinesFrom line text with
  | case1 line hempty => cases h
  | case2 line hempty => exact List.mem_singleton.mp h ▸ hline
  | case3 line rest ih =>
    cases List.mem_cons.mp h with
    | inl he => exact he ▸ hline
    | inr hrest => exact ih (List.forall_mem_nil _) hrest
  | case4 line c rest hcrlf hbreak ih =>
    cases List.mem_cons.mp h with
    | inl he => exact he ▸ hline
    | inr hrest => exact ih (List.forall_mem_nil _) hrest
  | case5 line c rest hcrlf hbreak ih =>
    refine ih (fun d hd => ?_) h
    cases List.mem_append.mp hd with
    | inl hold => exact hline d hold
    | inr hnew => exact List.mem_singleton.mp hnew ▸ Bool.eq_false_iff.mpr hbreak

theorem newline_not_mem_numbered {item : List Char × Nat}
    (h : ∀ c ∈ item.1, Text.isLineBreak c = false) : '\n' ∉ numberedLine item := by
  intro hin
  obtain hnumber | hrest := List.mem_append.mp hin
  · obtain hzero | hdigit := List.mem_append.mp hnumber
    · exact absurd (List.eq_of_mem_replicate hzero) (by decide)
    · have := Nat.isDigit_of_mem_toDigits (by decide) (by decide) hdigit
      cases this
  · rw [List.mem_cons, List.mem_cons] at hrest
    obtain he | he | hin := hrest
    · cases he
    · cases he
    · cases h '\n' hin

/-- The lines of a text with their numbers. -/
def numberedLines (text : List Char) : List (List Char) :=
  (Text.splitLines text).zipIdx.map numberedLine

theorem numberedLines_plain : ∀ line ∈ numberedLines text, '\n' ∉ line := by
  intro line hline
  obtain ⟨item, hitem, rfl⟩ := List.mem_map.mp hline
  have hin : item.1 ∈ Text.splitLinesFrom [] text := List.fst_mem_of_mem_zipIdx hitem
  exact newline_not_mem_numbered (mem_splitLinesFrom (List.forall_mem_nil _) hin)

/-- Some of the numbered lines, joined and cut to a limit, are an excerpt. -/
theorem boundedText_isExcerpt {numbered : List (List Char)} (hne : lines ≠ [])
    (hlines : ∀ line ∈ lines, line ∈ numbered) (hplain : ∀ line ∈ numbered, '\n' ∉ line) :
    IsExcerpt numbered (boundedText (Text.joinLines lines) limit) := by
  have hsplit : (Text.joinLines lines).splitOn '\n' = lines :=
    splitOn_joinLines hne fun line hline => hplain line (hlines line hline)
  unfold boundedText
  split_ifs with hfits
  · exact ⟨lines, hlines, .inl hsplit⟩
  · dsimp only
    obtain ⟨whole, line, cut, hwhole, hline, hcut, htaken⟩ := initial_joinLines hne takeBytes_initial
    refine ⟨whole, fun l hl => hlines l (hwhole l hl), .inr ⟨line, hlines line hline, cut, hcut, ?_⟩⟩
    have hjoin : Text.joinLines (whole ++ [cut]) ++ '\n' :: truncatedLine =
        Text.joinLines (whole ++ [cut, truncatedLine]) := by
      rw [← joinLines_snoc (by simp), List.append_assoc, List.singleton_append]
    rw [htaken, hjoin]
    refine splitOn_joinLines (by simp) fun l hl => ?_
    rw [List.mem_append, List.mem_cons, List.mem_singleton] at hl
    obtain hl | rfl | rfl := hl
    · exact hplain l (hlines l (hwhole l hl))
    · exact fun hin => hplain line (hlines line hline) (hcut.subset hin)
    · decide

variable {readers : ContextReaders} {repository : ContextRepository}

theorem excerptOf_isExcerpt (hne : (excerptOf readers repository text limit).1 ≠ []) :
    IsExcerpt (numberedLines text) (excerptOf readers repository text limit).1 := by
  unfold excerptOf at hne ⊢
  dsimp only at hne ⊢
  split_ifs at hne ⊢ with hfits
  · have hlines : numberedLines text ≠ [] := by
      intro hnil
      rw [numberedLines] at hnil
      rw [hnil] at hne
      exact hne rfl
    exact ⟨numberedLines text, fun _ hline => hline, .inl (splitOn_joinLines hlines numberedLines_plain)⟩
  · refine boundedText_isExcerpt ?_ ?_ numberedLines_plain
    · intro hnil
      have hempty : boundedText (Text.joinLines []) limit = [] := if_pos (Nat.zero_le limit)
      rw [renderLines, hnil] at hne
      exact hne hempty
    · intro line hline
      obtain ⟨item, hitem, rfl⟩ := List.mem_map.mp hline
      exact List.mem_map_of_mem (List.mem_filter.mp hitem).1

theorem utf8Length_excerptOf (h : markerBytes ≤ limit) :
    Text.utf8Length (excerptOf readers repository text limit).1 ≤ limit := by
  unfold excerptOf
  dsimp only
  split_ifs with hfits
  · exact hfits
  · exact utf8Length_boundedText h
end

/-- A text of one line that is too long is cut. -/
theorem excerptOf_oneLine {readers : ContextReaders} {repository : ContextRepository}
    {text line : List Char} {limit : Nat} (hlines : Text.splitLines text = [line])
    (hlong : limit < Text.utf8Length (numberedLine (line, 0))) :
    excerptOf readers repository text limit =
      (takeBytes (limit - markerBytes) (numberedLine (line, 0)) ++ '\n' :: truncatedLine, true) := by
  have hjoin : ∀ l : List Char, Text.joinLines [l] = l := fun l => by
    simp [Text.joinLines, List.intercalate]
  have hhits : keywordHits readers repository [line] = [0] := by
    unfold keywordHits
    simp only [List.zipIdx_cons, List.zipIdx_nil, List.filter_cons, List.filter_nil]
    split_ifs <;> simp_all
  have hrender : ∀ selected : List Nat, 0 ∈ selected →
      renderLines [line] selected = numberedLine (line, 0) := by
    intro selected h
    rw [renderLines, List.zipIdx_cons, List.zipIdx_nil, List.filter_cons_of_pos (by simpa using h),
      List.filter_nil, List.map_cons, List.map_nil, hjoin]
  have hselect : selectLines [line] limit [] [0] = [0] := by
    have hwindow : [] ++ hitWindow [line] 0 = [0] := rfl
    rw [selectLines, hwindow, hrender [0] (List.mem_singleton_self 0), if_pos hlong.le]
  unfold excerptOf
  dsimp only
  rw [hlines, hhits, hselect, hrender [0] (List.mem_singleton_self 0), List.zipIdx_cons,
    List.zipIdx_nil, List.map_cons, List.map_nil, hjoin, if_neg (not_le.mpr hlong), boundedText,
    if_neg (not_le.mpr hlong)]
  rfl

/-! All files. -/

/-- A document of a file, excerpted within a limit. -/
structure Excerpted (readers : ContextReaders) (file : SourceFile) (limit : Nat)
    (document : SourceDocument) : Prop where
  path : document.path = posixPath file.parts
  size : Text.utf8Length document.excerpt = document.includedBytes
  fits : document.includedBytes ≤ limit
  lines : ∃ raw text, file.text = some (raw, text) ∧
    IsExcerpt (numberedLines (redactedText readers text)) document.excerpt

/-- Each document is excerpted within what those before it have left of the bytes. -/
def ExcerptedWithin (readers : ContextReaders) (root : List SourceFile) :
    Nat → List SourceDocument → Prop
  | _, [] => True
  | remaining, document :: rest =>
    (∃ file ∈ root, Excerpted readers file (min maxFileExcerptBytes remaining) document) ∧
      ExcerptedWithin readers root (remaining - document.includedBytes) rest

section
variable {readers : ContextReaders} {repository : ContextRepository} {root files : List SourceFile}
  {room remaining limit : Nat} {file : SourceFile} {document : SourceDocument}

theorem readSourceFile_excerpted (h : readSourceFile readers repository file limit = some document)
    (hlimit : markerBytes ≤ limit) (hne : document.includedBytes ≠ 0) :
    Excerpted readers file limit document := by
  obtain ⟨⟨raw, text⟩, htext, rfl⟩ := Option.map_eq_some_iff.mp h
  have hfits : Text.utf8Length
      (excerptOf readers repository (redactedText readers text) limit).1 ≤ limit :=
    utf8Length_excerptOf hlimit
  have hexcerpt : (excerptOf readers repository (redactedText readers text) limit).1 ≠ [] →
      IsExcerpt (numberedLines (redactedText readers text))
        (excerptOf readers repository (redactedText readers text) limit).1 := excerptOf_isExcerpt
  generalize excerptOf readers repository (redactedText readers text) limit = excerpt at *
  refine ⟨rfl, rfl, hfits, raw, text, htext, hexcerpt ?_⟩
  intro hnil
  dsimp only at hne
  rw [hnil] at hne
  exact hne rfl

/-- The documents of a loop are within the room and the bytes that it has left. -/
theorem collectFrom_bounds (h : ∀ file ∈ files, file ∈ root) :
    (collectFrom readers repository room remaining files).length ≤ room ∧
    ((collectFrom readers repository room remaining files).map (·.includedBytes)).sum ≤ remaining ∧
    ExcerptedWithin readers root remaining (collectFrom readers repository room remaining files) := by
  induction files generalizing room remaining with
  | nil => exact ⟨Nat.zero_le _, Nat.zero_le _, trivial⟩
  | cons file rest ih =>
    obtain ⟨hfile, hrest⟩ := List.forall_mem_cons.mp h
    rw [collectFrom]
    by_cases hfull : room = 0 ∨ remaining < 256
    · rw [if_pos hfull]
      exact ⟨Nat.zero_le _, Nat.zero_le _, trivial⟩
    · rw [if_neg hfull]
      obtain ⟨hroom, hremaining⟩ := not_or.mp hfull
      cases hread : readSourceFile readers repository file (min maxFileExcerptBytes remaining) with
      | none => exact ih hrest
      | some document =>
        dsimp only
        by_cases hempty : document.includedBytes = 0
        · rw [if_pos hempty]
          exact ih hrest
        · rw [if_neg hempty]
          have hmarker : markerBytes ≤ min maxFileExcerptBytes remaining := by
            have hbytes : markerBytes = 23 := by decide
            rw [hbytes, maxFileExcerptBytes]
            omega
          have hdocument := readSourceFile_excerpted hread hmarker hempty
          have hfits : document.includedBytes ≤ remaining :=
            hdocument.fits.trans (Nat.min_le_right _ _)
          obtain ⟨hlength, hsum, hwithin⟩ :=
            @ih (room - 1) (remaining - document.includedBytes) hrest
          refine ⟨?_, ?_, ⟨file, hfile, hdocument⟩, hwithin⟩
          · rw [List.length_cons]
            omega
          · rw [List.map_cons, List.sum_cons]
            omega

theorem collectDocuments_bounds (readers : ContextReaders) (repository : ContextRepository)
    (root : List SourceFile) (fileLimit byteLimit : Nat) :
    (collectDocuments readers repository fileLimit byteLimit root).length ≤ fileLimit ∧
    ((collectDocuments readers repository fileLimit byteLimit root).map (·.includedBytes)).sum ≤
      byteLimit ∧
    ExcerptedWithin readers root byteLimit
      (collectDocuments readers repository fileLimit byteLimit root) :=
  collectFrom_bounds fun _ hfile => (List.mem_filter.mp (List.mem_mergeSort.mp hfile)).1

theorem contextFiles_bounds (readers : ContextReaders) (application terraform : List SourceFile) :
    (contextFiles readers application terraform).length ≤ maxContextFiles ∧
    ((contextFiles readers application terraform).map (·.includedBytes)).sum ≤ maxContextBytes := by
  obtain ⟨hlength, hsum, -⟩ := collectDocuments_bounds readers .application application
    applicationFileLimit maxApplicationBytes
  obtain ⟨hlength', hsum', -⟩ := collectDocuments_bounds readers .terraform terraform
    terraformFileLimit maxTerraformBytes
  rw [contextFiles, List.length_append, List.map_append, List.sum_append]
  exact ⟨Nat.add_le_add hlength hlength', Nat.add_le_add hsum hsum'⟩
end

def plainContext : ContextReaders := ⟨Text.lower, isWordByte, fun _ => ""⟩

def longLine : List Char := List.replicate 650 (Char.ofNat 0x1f600)

def longFile : SourceFile := ⟨["bantam", "faces.py"], some (Json.encodeUtf8 longLine)⟩

theorem longFile_text : longFile.text = some (Json.encodeUtf8 longLine, longLine) := by
  have hlength : (Json.encodeUtf8 longLine).length = 2600 := by
    rw [Json.length_encodeUtf8, longLine, Text.utf8Length, List.map_replicate,
      List.sum_replicate_nat]
    rfl
  have hnull : 0 ∉ Json.encodeUtf8 longLine := by
    intro hin
    obtain ⟨c, hc, hbyte⟩ := List.mem_flatMap.mp hin
    rw [List.eq_of_mem_replicate hc] at hbyte
    exact absurd hbyte (by decide +kernel)
  unfold SourceFile.text longFile
  rw [Option.bind_some, if_neg (by rw [hlength]; simpa [maxContextSourceBytes] using hnull),
    Json.decodeUtf8_encodeUtf8, Option.map_some]

theorem longFile_redacted : redactedText plainContext longLine = longLine := by
  have hlines : Text.splitLines (pem.sub plainContext.word "[REDACTED PEM MATERIAL]".toList 0 none
      longLine) = [longLine] := by decide +kernel
  have hline : redactLine plainContext.word longLine = longLine := by decide +kernel
  have hplain : (String.ofList longLine).toList = longLine := String.toList_ofList
  rw [redactedText, redactSensitiveText, hplain, hlines, List.map_singleton, hline,
    String.toList_ofList]
  simp [Text.joinLines, List.intercalate]

theorem longLine_lines : Text.splitLines longLine = [longLine] := by decide +kernel

theorem longLine_bytes : Text.utf8Length (numberedLine (longLine, 0)) = 2606 := by
  have hnumber : numberedLine (longLine, 0) = "0001: ".toList ++ longLine := rfl
  rw [hnumber, Text.utf8Length_append, longLine, Text.utf8Length, Text.utf8Length, List.map_replicate,
    List.sum_replicate_nat]
  rfl

/-- The beginning of the line that fits. -/
def cutLine : List Char := takeBytes (2600 - markerBytes) (numberedLine (longLine, 0))

theorem longFile_read : ∃ document,
    readSourceFile plainContext .application longFile 2600 = some document ∧
      document.excerpt = Text.joinLines [cutLine, truncatedLine] ∧
      document.includedBytes = Text.utf8Length document.excerpt := by
  have hjoin : Text.joinLines [cutLine, truncatedLine] = cutLine ++ '\n' :: truncatedLine := by
    simp [Text.joinLines, List.intercalate]
  have hexcerpt : excerptOf plainContext .application (redactedText plainContext longLine) 2600 =
      (cutLine ++ '\n' :: truncatedLine, true) := by
    rw [longFile_redacted]
    exact excerptOf_oneLine longLine_lines (by rw [longLine_bytes]; decide)
  rw [readSourceFile, longFile_text, Option.map_some, hexcerpt, hjoin]
  exact ⟨_, rfl, rfl, rfl⟩

end Bantam
