import Bantam.RepositoryFetch
import Mathlib.Data.Fintype.EquivFin

/-! The files of a snapshot: where they are written, and how large they are, whatever the provider
declares of them. -/
namespace Bantam

/-! What is read of a repository. -/

/-- The bytes that an answer serves for a blob. -/
def servedBytes (sha : String) (blob : List (String × Json)) : Option (List UInt8) :=
  ((blobText sha blob).bind decodeBlob).map (·.1)

/-- A file as it is read from the answer for its entry. -/
structure Read (provider : Provider) (request : Nat) (entry : TreeEntry) (file : FetchedFile) :
    Prop where
  path : file.path = entry.path
  served : ∃ blob, provider request = .ok blob ∧
    servedBytes entry.sha blob = some (Json.encodeUtf8 file.content)

section
variable {provider : Provider} {request total : Nat} {entries : List TreeEntry}
  {files : List FetchedFile} {entry : TreeEntry} {blob : List (String × Json)} {file : FetchedFile}

theorem decodeBlob_some {content : String} {raw : List UInt8} {text : List Char}
    (h : decodeBlob content = some (raw, text)) : Json.encodeUtf8 text = raw := by
  obtain ⟨raw', -, h⟩ := Option.bind_eq_some_iff.mp h
  obtain ⟨text', htext, he⟩ := Option.map_eq_some_iff.mp h
  cases he
  exact Json.encodeUtf8_of_decodeUtf8 htext

theorem readFile_ok {after : Nat} (hblob : provider request = .ok blob)
    (h : readFile entry blob total = .ok (file, after)) : Read provider request entry file ∧
      after = total + Text.utf8Length file.content ∧ after ≤ maxRepositoryBytes := by
  unfold readFile at h
  cases htext : blobText entry.sha blob with
  | none =>
    rw [htext] at h
    cases h
  | some content =>
    rw [htext] at h
    cases hdecode : decodeBlob content with
    | none =>
      simp only [hdecode] at h
      cases h
    | some read =>
      obtain ⟨raw, text⟩ := read
      have hraw := decodeBlob_some hdecode
      simp only [hdecode] at h
      split_ifs at h with hlarge
      cases h
      have hserved : servedBytes entry.sha blob = some (Json.encodeUtf8 text) := by
        rw [servedBytes, htext, Option.bind_some, hdecode, Option.map_some, hraw]
      refine ⟨⟨rfl, blob, hblob, hserved⟩, ?_, not_lt.mp hlarge⟩
      rw [← hraw, Json.length_encodeUtf8]

/-- The files are read from one answer each, in order, and stay within the limit together. -/
theorem readFiles_ok (h : readFiles provider request total entries = .ok files) :
    files.length = entries.length ∧
    (∀ i entry file, entries[i]? = some entry → files[i]? = some file →
      Read provider (request + i) entry file) ∧
    (total ≤ maxRepositoryBytes →
      total + (files.map fun file => Text.utf8Length file.content).sum ≤ maxRepositoryBytes) := by
  induction entries generalizing request total files with
  | nil =>
    cases h
    exact ⟨rfl, fun i entry file hentry => by simp at hentry, fun h => h⟩
  | cons entry rest ih =>
    rw [readFiles] at h
    obtain ⟨blob, hblob, h⟩ := bind_eq_ok.mp h
    obtain ⟨⟨file, after⟩, hfile, h⟩ := bind_eq_ok.mp h
    obtain ⟨later, hlater, h⟩ := bind_eq_ok.mp h
    cases h
    obtain ⟨hread, hafter, hlimit⟩ := readFile_ok hblob hfile
    obtain ⟨hlength, hall, hsum⟩ := ih hlater
    refine ⟨by rw [List.length_cons, List.length_cons, hlength], ?_, fun _ => ?_⟩
    · intro i entry' file' hentry hfile'
      cases i with
      | zero =>
        cases hentry
        cases hfile'
        exact hread
      | succ i =>
        rw [Nat.add_succ, ← Nat.succ_add]
        exact hall i entry' file' hentry hfile'
    · have := hsum hlimit
      rw [List.map_cons, List.sum_cons]
      omega
end

/-! What is selected. -/

/-- A document by its path. -/
def isDocument (casefold : String → String) (source : RepositorySource) (path : String) : Bool :=
  (eligible casefold path source.language).2

section
variable {casefold : String → String} {source : RepositorySource} {entries : List Json}
  {selected : List TreeEntry} {provider : Provider} {commit : String}

theorem treeEntry_document {value : Json} {documentation : Bool} {entry : TreeEntry}
    (h : treeEntry casefold source value = .ok (some (documentation, entry))) :
    isDocument casefold source entry.path = documentation := by
  unfold treeEntry at h
  split at h
  · split at h
    · cases h
    · dsimp only at h
      split_ifs at h
      · cases h
      · split at h
        · cases h
        · cases h
          rfl
  · cases h

/-- The code that is selected, and the documents after it. -/
structure Selected (casefold : String → String) (source : RepositorySource)
    (code documents : List TreeEntry) : Prop where
  few : code.length ≤ maxCodeFiles
  short : documents.length ≤ maxDocumentationFiles
  code : ∀ entry ∈ code, isDocument casefold source entry.path = false
  documents : ∀ entry ∈ documents, isDocument casefold source entry.path = true

theorem selectEntries_ok (h : selectEntries casefold source entries = .ok selected) :
    ∃ code documents, selected = code ++ documents ∧ Selected casefold source code documents := by
  obtain ⟨found, hfound, h⟩ := bind_eq_ok.mp h
  dsimp only at h
  split_ifs at h with hmany hnone hlarge
  cases h
  -- an entry is sorted by what `treeEntry` has told of it
  have hdocument : ∀ item ∈ found.filterMap id, isDocument casefold source item.2.path = item.1 := by
    intro item hitem
    obtain ⟨read, hread, rfl⟩ := List.mem_filterMap.mp hitem
    obtain ⟨value, -, hvalue⟩ := Fallible.mem_mapM_ok hfound hread
    exact treeEntry_document hvalue
  refine ⟨_, _, rfl, ?_, List.length_take_le _ _, ?_, ?_⟩
  · rw [List.length_mergeSort]
    exact not_lt.mp hmany
  · intro entry hentry
    obtain ⟨item, hitem, rfl⟩ := List.mem_map.mp (List.mem_mergeSort.mp hentry)
    obtain ⟨hin, hcode⟩ := List.mem_filter.mp hitem
    rw [hdocument item hin]
    simpa using hcode
  · intro entry hentry
    obtain ⟨item, hitem, rfl⟩ := List.mem_map.mp (List.mem_mergeSort.mp (List.mem_of_mem_take hentry))
    obtain ⟨hin, hdoc⟩ := List.mem_filter.mp hitem
    rw [hdocument item hin, hdoc]

theorem fetchPlan_ok (h : fetchPlan casefold provider source = .ok (commit, selected)) :
    ∃ code documents, selected = code ++ documents ∧ Selected casefold source code documents := by
  obtain ⟨_, _, h⟩ := bind_eq_ok.mp h
  obtain ⟨_, _, h⟩ := bind_eq_ok.mp h
  obtain ⟨_, _, h⟩ := bind_eq_ok.mp h
  obtain ⟨_, _, h⟩ := bind_eq_ok.mp h
  obtain ⟨_, hselect, h⟩ := bind_eq_ok.mp h
  cases h
  exact selectEntries_ok hselect

/-- A snapshot has the files of its plan. -/
theorem fetch_ok {sha256 : String → String} {snapshot : FetchedSnapshot}
    (h : fetch casefold sha256 provider source = .ok snapshot) :
    ∃ commit selected, fetchPlan casefold provider source = .ok (commit, selected) ∧
      readFiles provider 2 0 selected = .ok snapshot.files := by
  obtain ⟨⟨commit, selected⟩, hplan, h⟩ := bind_eq_ok.mp h
  obtain ⟨files, hfiles, h⟩ := bind_eq_ok.mp h
  cases h
  exact ⟨commit, selected, hplan, hfiles⟩
end

/-! A repository of one file, of undeclared size. -/

def sampleSource : RepositorySource := ⟨"owner/name", "main", "", .python⟩

def sampleId : String := "0123456789abcdef0123456789abcdef01234567"

def oneFile (path : String) (text : List Char) : Provider
  | 0 => .ok [("sha", .str sampleId), ("commit", .obj [("tree", .obj [("sha", .str sampleId)])])]
  | 1 => .ok [("tree", .arr [.obj [("type", .str "blob"), ("path", .str path),
      ("sha", .str "blob")]])]
  | _ => .ok [("sha", .str "blob"), ("encoding", .str "base64"),
      ("content", .str (String.ofList (Base64.encode (Json.encodeUtf8 text))))]

theorem decodeBlob_encode (text : List Char) :
    decodeBlob (String.ofList (Base64.encode (Json.encodeUtf8 text))) =
      some (Json.encodeUtf8 text, text) := by
  have hdigit : ∀ n < 64, Text.isSpace (Base64.digit n) = false := by decide +kernel
  have hplain : ∀ c ∈ Base64.encode (Json.encodeUtf8 text), (!Text.isSpace c) = true := by
    intro c hc
    obtain rfl | ⟨n, hn, rfl⟩ := Base64.mem_encode hc
    · decide
    · rw [hdigit n hn]
      rfl
  rw [decodeBlob, String.toList_ofList, List.filter_eq_self.mpr hplain, Base64.decode_encode,
    Option.bind_some, Json.decodeUtf8_encodeUtf8, Option.map_some]

/-- A file of undeclared size is fetched within the limit on a repository. -/
theorem fetch_oneFile (path : String) (text : List Char)
    (hplan : fetchPlan Text.lower (oneFile path []) sampleSource =
      .ok (sampleId, [⟨path, "blob", 0⟩]))
    (hsize : Text.utf8Length text ≤ maxRepositoryBytes) :
    ∃ snapshot, fetch Text.lower id (oneFile path text) sampleSource = .ok snapshot ∧
      snapshot.files = [⟨path, "blob", text⟩] := by
  have hsame : fetchPlan Text.lower (oneFile path text) sampleSource =
      .ok (sampleId, [⟨path, "blob", 0⟩]) := hplan
  have hread : readFile ⟨path, "blob", 0⟩ [("sha", .str "blob"), ("encoding", .str "base64"),
      ("content", .str (String.ofList (Base64.encode (Json.encodeUtf8 text))))] 0 =
      .ok (⟨path, "blob", text⟩, 0 + (Json.encodeUtf8 text).length) := by
    have htext : blobText "blob" [("sha", .str "blob"), ("encoding", .str "base64"),
        ("content", .str (String.ofList (Base64.encode (Json.encodeUtf8 text))))] =
        some (String.ofList (Base64.encode (Json.encodeUtf8 text))) := rfl
    unfold readFile
    rw [htext]
    dsimp only
    rw [decodeBlob_encode]
    dsimp only
    rw [if_neg (by rw [Json.length_encodeUtf8]; omega)]
  have hfiles : readFiles (oneFile path text) 2 0 [⟨path, "blob", 0⟩] =
      .ok [⟨path, "blob", text⟩] := by
    show ((readFile _ _ 0 >>= _) : Except Failure (List FetchedFile)) = _
    rw [hread]
    rfl
  have hfetch : fetch Text.lower id (oneFile path text) sampleSource = .ok {
      source := sampleSource
      resolvedCommit := sampleId
      files := [⟨path, "blob", text⟩]
      detectedLanguage := detectLanguage Text.lower [⟨path, "blob", text⟩]
      sourceSha256 := Json.canonical (.arr [FetchedFile.manifest ⟨path, "blob", text⟩]) } := by
    refine bind_eq_ok.mpr ⟨_, hsame, ?_⟩
    exact bind_eq_ok.mpr ⟨_, hfiles, rfl⟩
  exact ⟨_, hfetch, rfl⟩

theorem plan_of_some {provider : Provider} {source : RepositorySource}
    {plan : String × List TreeEntry}
    (h : (fetchPlan Text.lower provider source).toOption = some plan) :
    fetchPlan Text.lower provider source = .ok plan := by
  cases hplan : fetchPlan Text.lower provider source with
  | error e =>
    rw [hplan] at h
    cases h
  | ok found =>
    rw [hplan] at h
    cases h
    rfl

/-! The limits. -/

/-- The limits on the files of a snapshot. -/
structure WithinLimits (casefold : String → String) (snapshot : FetchedSnapshot) : Prop where
  files : ∀ file ∈ snapshot.files, Text.utf8Length file.content ≤ maxSourceFileBytes
  total : (snapshot.files.map fun file => Text.utf8Length file.content).sum ≤ maxRepositoryBytes
  code : (snapshot.files.filter fun file =>
    !isDocument casefold snapshot.source file.path).length ≤ maxCodeFiles
  documents : (snapshot.files.filter fun file =>
    isDocument casefold snapshot.source file.path).length ≤ maxDocumentationFiles

section
variable {casefold sha256 : String → String} {provider : Provider} {source : RepositorySource}
  {commit : String} {selected : List TreeEntry} {snapshot : FetchedSnapshot}

theorem paths_eq {files : List FetchedFile} {total request : Nat}
    (h : readFiles provider request total selected = .ok files) :
    files.map (·.path) = selected.map (·.path) := by
  obtain ⟨hlength, hall, -⟩ := readFiles_ok h
  refine List.ext_getElem (by simp [hlength]) fun i hi hj => ?_
  rw [List.length_map] at hi hj
  have hread := hall i selected[i] files[i] (List.getElem?_eq_getElem hj) (List.getElem?_eq_getElem hi)
  simpa using hread.path

/-- As many files as entries have a path of a kind. -/
theorem length_filter_paths {files : List FetchedFile} {p : String → Bool}
    (h : files.map (·.path) = selected.map (·.path)) :
    (files.filter fun file => p file.path).length =
      (selected.filter fun entry => p entry.path).length := by
  have hfiles := List.filter_map (f := fun file : FetchedFile => file.path) (p := p) (l := files)
  have hentries := List.filter_map (f := fun entry : TreeEntry => entry.path) (p := p) (l := selected)
  have hlengths := congrArg (fun paths => (paths.filter p).length) h
  simpa [hfiles, hentries, Function.comp_def] using hlengths

theorem Selected.length_code {code documents : List TreeEntry}
    (h : Selected casefold source code documents) :
    ((code ++ documents).filter fun entry =>
      !isDocument casefold source entry.path).length ≤ maxCodeFiles := by
  have hnone : documents.filter (fun entry => !isDocument casefold source entry.path) = [] :=
    List.filter_eq_nil_iff.mpr fun entry hentry => by simp [h.documents entry hentry]
  rw [List.filter_append, hnone, List.append_nil]
  exact (List.length_filter_le _ _).trans h.few

theorem Selected.length_documents {code documents : List TreeEntry}
    (h : Selected casefold source code documents) :
    ((code ++ documents).filter fun entry =>
      isDocument casefold source entry.path).length ≤ maxDocumentationFiles := by
  have hnone : code.filter (fun entry => isDocument casefold source entry.path) = [] :=
    List.filter_eq_nil_iff.mpr fun entry hentry => by simp [h.code entry hentry]
  rw [List.filter_append, hnone, List.nil_append]
  exact (List.length_filter_le _ _).trans h.short

/-- The limits on the total and on the numbers of files hold whatever the provider answers. -/
theorem fetch_totals (h : fetch casefold sha256 provider source = .ok snapshot) :
    (snapshot.files.map fun file => Text.utf8Length file.content).sum ≤ maxRepositoryBytes ∧
    (snapshot.files.filter fun file =>
      !isDocument casefold snapshot.source file.path).length ≤ maxCodeFiles ∧
    (snapshot.files.filter fun file =>
      isDocument casefold snapshot.source file.path).length ≤ maxDocumentationFiles := by
  have hsource : snapshot.source = source := by
    obtain ⟨_, _, h⟩ := bind_eq_ok.mp h
    obtain ⟨_, _, h⟩ := bind_eq_ok.mp h
    cases h
    rfl
  obtain ⟨commit, selected, hplan, hfiles⟩ := fetch_ok h
  obtain ⟨code, documents, rfl, hselected⟩ := fetchPlan_ok hplan
  have hpaths := paths_eq hfiles
  obtain ⟨-, -, htotal⟩ := readFiles_ok hfiles
  refine ⟨by simpa using htotal (Nat.zero_le _), ?_, ?_⟩
  · rw [hsource, length_filter_paths (p := fun path => !isDocument casefold source path) hpaths]
    exact hselected.length_code
  · rw [hsource, length_filter_paths (p := fun path => isDocument casefold source path) hpaths]
    exact hselected.length_documents

/-- No blob that is fetched is longer than a file may be, though only its declared size is checked. -/
def HonestBlobs (casefold : String → String) (provider : Provider) (source : RepositorySource) :
    Prop :=
  ∀ commit selected, fetchPlan casefold provider source = .ok (commit, selected) →
    ∀ i entry blob bytes, selected[i]? = some entry → provider (2 + i) = .ok blob →
      servedBytes entry.sha blob = some bytes → bytes.length ≤ maxSourceFileBytes

/-- A snapshot is within the limits exactly when no blob is longer than a file may be. -/
theorem fetch_within_limits (h : fetch casefold sha256 provider source = .ok snapshot) :
    WithinLimits casefold snapshot ↔ HonestBlobs casefold provider source := by
  obtain ⟨commit, selected, hplan, hfiles⟩ := fetch_ok h
  obtain ⟨hlength, hread, -⟩ := readFiles_ok hfiles
  constructor
  · intro hlimits commit' selected' hplan' i entry blob bytes hentry hblob hbytes
    rw [hplan] at hplan'
    cases hplan'
    have hi : i < snapshot.files.length := by
      rw [hlength]
      exact (List.getElem?_eq_some_iff.mp hentry).1
    obtain ⟨-, blob', hblob', hserved⟩ := hread i entry _ hentry (List.getElem?_eq_getElem hi)
    rw [hblob] at hblob'
    cases hblob'
    rw [hbytes] at hserved
    cases hserved
    rw [Json.length_encodeUtf8]
    exact hlimits.files _ (List.getElem_mem hi)
  · intro hhonest
    obtain ⟨htotal, hcode, hdocuments⟩ := fetch_totals h
    refine ⟨fun file hfile => ?_, htotal, hcode, hdocuments⟩
    obtain ⟨i, hi, rfl⟩ := List.getElem_of_mem hfile
    have hi' : i < selected.length := by omega
    obtain ⟨-, blob, hblob, hserved⟩ := hread i selected[i] _ (List.getElem?_eq_getElem hi')
      (List.getElem?_eq_getElem hi)
    rw [← Json.length_encodeUtf8]
    exact hhonest commit selected hplan i selected[i] blob _ (List.getElem?_eq_getElem hi') hblob
      hserved
end

theorem fetch_within_limits_small : ∃ snapshot,
    fetch Text.lower id (oneFile "main.py" ['x']) sampleSource = .ok snapshot ∧
      (WithinLimits Text.lower snapshot ↔
        HonestBlobs Text.lower (oneFile "main.py" ['x']) sampleSource) := by
  obtain ⟨snapshot, hfetch, -⟩ := fetch_oneFile "main.py" ['x']
    (plan_of_some (by decide +kernel)) (by decide)
  exact ⟨snapshot, hfetch, fetch_within_limits hfetch⟩

/-- A blob of more bytes than a file may have. -/
theorem undeclared_blob_fetched : ∃ snapshot,
    fetch Text.lower id (oneFile "main.py" (List.replicate 750001 'a')) sampleSource = .ok snapshot ∧
      ¬WithinLimits Text.lower snapshot := by
  have hlength : Text.utf8Length (List.replicate 750001 'a') = 750001 := by
    rw [Text.utf8Length, List.map_replicate, List.sum_replicate_nat]
    rfl
  obtain ⟨snapshot, hfetch, hfiles⟩ := fetch_oneFile "main.py" (List.replicate 750001 'a')
    (plan_of_some (by decide +kernel))
    (by rw [hlength]; decide)
  refine ⟨snapshot, hfetch, fun hlimits => ?_⟩
  have hfile := hlimits.files ⟨"main.py", "blob", List.replicate 750001 'a'⟩
    (hfiles ▸ List.mem_singleton_self _)
  dsimp only at hfile
  rw [hlength] at hfile
  exact absurd hfile (by decide)

/-! Where the files are written. -/

/-- Where a path leads from a directory, both by their names; there are no links below it. -/
def resolvePath (directory parts : List String) : List String :=
  parts.foldl (fun place part => if part = ".." then place.dropLast else place ++ [part]) directory

/-- The path is in the directory or further below. -/
def StrictlyInside (directory path : List String) : Prop :=
  ∃ below, below ≠ [] ∧ path = directory ++ below

/-- How far below its start a path ends; none for a path that climbs above it on the way. -/
def depthAfter : Nat → List String → Option Nat
  | depth, [] => some depth
  | depth, part :: rest =>
    if part = ".." then (if depth = 0 then none else depthAfter (depth - 1) rest)
    else depthAfter (depth + 1) rest

/-- The file's path ends below its start and never climbs above it. -/
def StaysBelow (path : String) : Prop := ∃ depth > 0, depthAfter 0 (pathParts path) = some depth

/-- Every file of the snapshot is written strictly inside, whatever the directory. -/
def Confined (snapshot : FetchedSnapshot) : Prop :=
  ∀ file ∈ snapshot.files, ∀ directory, StrictlyInside directory
    (resolvePath directory (pathParts file.path))

section
variable {directory below parts : List String} {depth : Nat} {name : String}

theorem resolvePath_of_depth (directory : List String) (h : depthAfter below.length parts = some depth) :
    ∃ deeper, deeper.length = depth ∧ resolvePath (directory ++ below) parts = directory ++ deeper := by
  induction parts generalizing below with
  | nil =>
    cases h
    exact ⟨below, rfl, rfl⟩
  | cons part rest ih =>
    rw [depthAfter] at h
    rw [resolvePath, List.foldl_cons]
    split_ifs at h ⊢ with hup hroot
    · have hne : below ≠ [] := fun he => hroot (by rw [he]; rfl)
      rw [List.dropLast_append_of_ne_nil hne]
      exact ih (by rwa [List.length_dropLast])
    · rw [List.append_assoc]
      exact ih (by rwa [List.length_append, List.length_singleton])

theorem not_mem_resolvePath (hdirectory : name ∉ directory) (hparts : name ∉ parts) :
    name ∉ resolvePath directory parts := by
  induction parts generalizing directory with
  | nil => exact hdirectory
  | cons part rest ih =>
    obtain ⟨hpart, hrest⟩ := not_or.mp (List.mem_cons.not.mp hparts)
    rw [resolvePath, List.foldl_cons]
    refine ih ?_ hrest
    split_ifs
    · exact fun hin => hdirectory (List.dropLast_subset _ hin)
    · intro hin
      cases List.mem_append.mp hin with
      | inl hold => exact hdirectory hold
      | inr hnew => exact hpart (List.mem_singleton.mp hnew)

/-- A path that climbs above its start leaves a directory whose name it does not have. -/
theorem climbs_out (hbelow : name ∉ below) (hparts : name ∉ parts)
    (h : depthAfter below.length parts = none) : name ∉ resolvePath (name :: below) parts := by
  induction parts generalizing below with
  | nil => cases h
  | cons part rest ih =>
    obtain ⟨hpart, hrest⟩ := not_or.mp (List.mem_cons.not.mp hparts)
    rw [depthAfter] at h
    rw [resolvePath, List.foldl_cons]
    split_ifs at h ⊢ with hup hroot
    · have hnil : below = [] := List.length_eq_zero_iff.mp hroot
      rw [hnil]
      exact not_mem_resolvePath List.not_mem_nil hrest
    · have hne : below ≠ [] := fun he => hroot (by rw [he]; rfl)
      rw [List.dropLast_cons_of_ne_nil hne]
      exact ih (fun hin => hbelow (List.dropLast_subset _ hin)) hrest
        (by rwa [List.length_dropLast])
    · refine @ih (below ++ [part]) ?_ hrest (by rwa [List.length_append])
      intro hin
      cases List.mem_append.mp hin with
      | inl hold => exact hbelow hold
      | inr hnew => exact hpart (List.mem_singleton.mp hnew)

theorem exists_other_name (parts : List String) : ∃ name, name ∉ parts := by
  obtain ⟨name, hname⟩ := Infinite.exists_notMem_finset parts.toFinset
  exact ⟨name, fun hin => hname (List.mem_toFinset.mpr hin)⟩

/-- Where a path leads is strictly inside every directory exactly when it stays below its start. -/
theorem strictlyInside_iff (path : String) :
    (∀ directory, StrictlyInside directory (resolvePath directory (pathParts path))) ↔
      StaysBelow path := by
  constructor
  · intro hinside
    cases hdepth : depthAfter 0 (pathParts path) with
    | none =>
      obtain ⟨name, hname⟩ := exists_other_name (pathParts path)
      obtain ⟨below, -, hbelow⟩ := hinside [name]
      have hout : name ∉ resolvePath [name] (pathParts path) :=
        climbs_out List.not_mem_nil hname hdepth
      rw [hbelow] at hout
      exact absurd (List.mem_append_left _ (List.mem_singleton_self name)) hout
    | some depth =>
      refine ⟨depth, Nat.pos_of_ne_zero fun hzero => ?_, hdepth⟩
      obtain ⟨below, hne, hbelow⟩ := hinside []
      obtain ⟨deeper, hlength, hdeeper⟩ := @resolvePath_of_depth [] _ _ [] hdepth
      rw [List.append_nil] at hdeeper
      rw [hdeeper, List.nil_append, List.nil_append] at hbelow
      rw [hzero] at hlength
      exact hne (hbelow ▸ List.length_eq_zero_iff.mp hlength)
  · rintro ⟨depth, hpos, hdepth⟩ directory
    obtain ⟨deeper, hlength, hdeeper⟩ :=
      @resolvePath_of_depth [] _ _ directory hdepth
    rw [List.append_nil] at hdeeper
    refine ⟨deeper, ?_, hdeeper⟩
    rintro rfl
    rw [List.length_nil] at hlength
    omega
end

section
variable {casefold sha256 : String → String} {provider : Provider} {source : RepositorySource}
  {snapshot : FetchedSnapshot}

/-- The files of a snapshot are written strictly inside the directory, whatever the directory,
exactly when the path of no selected entry climbs above the root of the tree. -/
theorem fetched_paths_confined (h : fetch casefold sha256 provider source = .ok snapshot) :
    Confined snapshot ↔ ∀ commit selected, fetchPlan casefold provider source =
      .ok (commit, selected) → ∀ entry ∈ selected, StaysBelow entry.path := by
  obtain ⟨commit, selected, hplan, hfiles⟩ := fetch_ok h
  have hpaths := paths_eq hfiles
  have hboth : (∀ file ∈ snapshot.files, StaysBelow file.path) ↔
      ∀ entry ∈ selected, StaysBelow entry.path := by
    have hmap : (∀ path ∈ snapshot.files.map (·.path), StaysBelow path) ↔
        ∀ path ∈ selected.map (·.path), StaysBelow path := by rw [hpaths]
    rwa [List.forall_mem_map, List.forall_mem_map] at hmap
  unfold Confined
  simp only [strictlyInside_iff]
  rw [hboth]
  constructor
  · intro hall commit' selected' hplan'
    rw [hplan] at hplan'
    cases hplan'
    exact hall
  · exact fun hall => hall commit selected hplan
end

theorem fetched_paths_confined_below : ∃ snapshot,
    fetch Text.lower id (oneFile "a/../main.py" ['x']) sampleSource = .ok snapshot ∧
      Confined snapshot := by
  have hplan : fetchPlan Text.lower (oneFile "a/../main.py" ['x']) sampleSource =
      .ok (sampleId, [⟨"a/../main.py", "blob", 0⟩]) := plan_of_some (by decide +kernel)
  obtain ⟨snapshot, hfetch, -⟩ := fetch_oneFile "a/../main.py" ['x'] hplan (by decide)
  refine ⟨snapshot, hfetch, (fetched_paths_confined hfetch).mpr fun commit selected hplan' => ?_⟩
  rw [hplan] at hplan'
  cases hplan'
  intro entry hentry
  cases List.mem_singleton.mp hentry
  exact ⟨1, by decide, by decide +kernel⟩

/-- A path that starts with `..` is fetched and written beside the directory. -/
theorem escaping_path_fetched : ∃ snapshot,
    fetch Text.lower id (oneFile "../escaped.py" ['x']) sampleSource = .ok snapshot ∧
      ¬Confined snapshot := by
  obtain ⟨snapshot, hfetch, hfiles⟩ := fetch_oneFile "../escaped.py" ['x']
    (plan_of_some (by decide +kernel)) (by decide)
  refine ⟨snapshot, hfetch, fun hconfined => ?_⟩
  obtain ⟨depth, -, hdepth⟩ := (strictlyInside_iff "../escaped.py").mp
    (hconfined ⟨"../escaped.py", "blob", ['x']⟩ (hfiles ▸ List.mem_singleton_self _))
  have hnone : depthAfter 0 (pathParts "../escaped.py") = none := by decide +kernel
  rw [hnone] at hdepth
  cases hdepth

/-- The root path of a source has no `..` in it. -/
theorem safeRootPath_plain {casefold : String → String} {value root : String}
    (h : safeRootPath casefold value = .ok root) :
    root = "" ∨ ∃ parts, root = posixText parts ∧ ".." ∉ parts := by
  unfold safeRootPath at h
  dsimp only at h
  split_ifs at h with hempty hlong hparts
  · exact .inl (Except.ok.inj h).symm
  · refine .inr ⟨_, (Except.ok.inj h).symm, fun hin => hparts (.inl ?_)⟩
    exact List.any_eq_true.mpr ⟨_, hin, by decide⟩

end Bantam
