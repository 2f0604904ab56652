import ModuleBuild.Proofs.Bundle.ChunkNames
import ModuleBuild.Proofs.Compile.Restore
import ModuleBuild.Proofs.Files.Writes
import ModuleBuild.Proofs.Text.Encoding
/-!
What chunk files hold. Where all code is stored and can be read as text, nothing but a write that fails stops a
bundle, and each chunk is a file of its own with the code of its modules one after another.
-/

namespace ModuleBuild

namespace Utf8

theorem utf8EncodeChar_newline : String.utf8EncodeChar '\n' = [10] := by decide

theorem getLast?_encode (text : List Char) : (encode text).getLast? = some 10 ↔ text.getLast? = some '\n' := by
  rcases List.eq_nil_or_concat text with rfl | ⟨before, c, rfl⟩
  · simp
  rw [List.concat_eq_append, encode_append, List.getLast?_concat, Option.some.injEq, encode_cons, encode_nil,
    List.append_nil]
  constructor
  · intro last
    rcases utf8EncodeChar_cases c with ⟨byte, only, -⟩ | ⟨-, large⟩
    · rw [only, List.getLast?_concat, Option.some.injEq] at last
      have same : encode [c] = encode ['\n'] := by simp [only, last, utf8EncodeChar_newline]
      exact (List.cons.inj (encode_injective same)).1
    · have nonempty : String.utf8EncodeChar c ≠ [] := by
        rw [← List.length_pos_iff, String.length_utf8EncodeChar]
        exact c.utf8Size_pos
      rw [List.getLast?_append_of_ne_nil _ nonempty] at last
      exact absurd (by decide) (large 10 (List.mem_of_getLast? last))
  · rintro rfl
    rw [utf8EncodeChar_newline, List.getLast?_concat]

end Utf8

namespace Bundle

/-! ## The code of a chunk -/

/-- The stored code that the record of a module refers to. -/
def artifact? (graph : ModuleGraph) (store : ArtifactStore) (specifier : Specifier) : Option Bytes :=
  ((graph.get? specifier).bind (·.output?)).bind fun output => store.blobs.get? output.key

/-- A module in a chunk: a line that names it, its code, and a line break unless the code ends in one. -/
def paragraph (specifier : Specifier) (code : Bytes) : Bytes :=
  Text.bytes s!"// {specifier.text}\n" ++ code ++ if code.getLast? = some 10 then [] else [10]

theorem section?_ok (specifier : Specifier) (text : List Char) :
    ∃ written, section? ⟨specifier, Utf8.encode text⟩ = .ok written ∧
      Utf8.encode written = paragraph specifier (Utf8.encode text) := by
  refine ⟨_, by simp only [section?, Utf8.decode_encode]; rfl, ?_⟩
  have ending : Utf8.encode (if text.getLast? = some '\n' then [] else ['\n']) =
      if (Utf8.encode text).getLast? = some 10 then [] else [10] := by
    by_cases last : text.getLast? = some '\n'
    · rw [if_pos last, if_pos ((Utf8.getLast?_encode text).2 last), Utf8.encode_nil]
    · rw [if_neg last, if_neg (mt (Utf8.getLast?_encode text).1 last), Utf8.encode_cons,
        Utf8.utf8EncodeChar_newline]
      rfl
  have line : "// ".toList ++ specifier.chars ++ ['\n'] = s!"// {specifier.text}\n".toList := by
    simp [Specifier.chars, toString]
  rw [Utf8.encode_append, ending, List.append_cons, Utf8.encode_append, line]
  rfl

theorem concatenate_ok (name : String) (kind : EntryKind) {modules : List ChunkModule}
    (texts : ∀ item ∈ modules, ∃ text, item.code = Utf8.encode text) :
    ∃ code, concatenate { name, kind, modules } = .ok code ∧
      Utf8.encode code = modules.flatMap fun item => paragraph item.specifier item.code := by
  suffices ∃ sections, modules.mapM section? = .ok sections ∧
      Utf8.encode sections.flatten = modules.flatMap fun item => paragraph item.specifier item.code by
    obtain ⟨sections, done, same⟩ := this
    exact ⟨_, by rw [concatenate, done]; rfl, same⟩
  induction modules with
  | nil => exact ⟨[], rfl, rfl⟩
  | cons item rest ih =>
    obtain ⟨⟨text, code⟩, later⟩ := List.forall_mem_cons.1 texts
    obtain ⟨sections, done, same⟩ := ih later
    obtain ⟨written, first, bytes⟩ := section?_ok item.specifier text
    refine ⟨written :: sections, ?_, ?_⟩
    · rw [← code] at first
      rw [List.mapM_cons, show section? item = .ok written from first, done]
      rfl
    · rw [List.flatten_cons, Utf8.encode_append, bytes, same, List.flatMap_cons, code]

/-! ## Names of chunk files -/

theorem slash_notMem_chunkHash (code : List Char) (metadata : String) :
    '/' ∉ (chunkHash code metadata).toList := by
  intro member
  rw [chunkHash, String.toList_ofList] at member
  obtain ⟨n, small, is⟩ := Blake3.mem_hexDigits (List.mem_of_mem_take member)
  have digits : ∀ m < 16, '/' ≠ Nat.digitChar m := by decide
  exact digits n small is

def chunkFile (name : String) (code : List Char) (metadata : String) : String :=
  s!"{name}.{chunkHash code metadata}.js"

section

variable {name : String} (plain : '/' ∉ name.toList) (code : List Char) (metadata : String)

theorem toList_chunkFile : (chunkFile name code metadata).toList =
    name.toList ++ '.' :: (chunkHash code metadata).toList ++ ['.', 'j', 's'] := by
  simp [chunkFile, toString]

include plain in
theorem isName_chunkFile : Path.IsName (chunkFile name code metadata).toList := by
  have longer {text : List Char} (short : text.length < 4) : (chunkFile name code metadata).toList ≠ text := by
    rintro rfl
    rw [toList_chunkFile] at short
    simp only [List.length_append, List.length_cons, List.length_nil] at short
    omega
  refine ⟨longer (by decide), longer (by decide), longer (by decide), ?_⟩
  rw [toList_chunkFile]
  simp [plain, slash_notMem_chunkHash]

theorem chunkFile_ne_manifestFile : (chunkFile name code metadata).toList ≠ manifestFile := by
  intro same
  rw [toList_chunkFile] at same
  have last := congrArg List.getLast? same
  rw [List.getLast?_append_of_ne_nil _ (by decide)] at last
  exact absurd last (by decide)

end

theorem isName_manifestFile : Path.IsName manifestFile := ⟨by decide, by decide, by decide, by decide⟩

/-- Where the file of a chunk is. -/
def BundleOptions.pathOf (options : BundleOptions) (file : String) : List Char :=
  Path.clean (Path.join options.directory file.toList)

theorem outputPath?_name {options : BundleOptions} (absolute : Path.isAbsolute options.directory = true)
    {file : String} (name : Path.IsName file.toList) :
    outputPath? options.directory file.toList = some (options.pathOf file) := by
  have within : Path.isWithin (Path.clean options.directory) (options.pathOf file) = true := by
    rw [Path.isWithin, BundleOptions.pathOf, Path.components_clean_join absolute name]
    exact List.isPrefixOf_iff_prefix.2 (List.prefix_append _ _)
  rw [outputPath?, if_neg, if_pos]
  · rfl
  · exact within
  · simp [Path.isAbsolute_name name, Path.components_name name, isPlainStep]

/-! ## Writing them -/

/-- A file holds some bytes, and its path leads there in every tree. -/
structure Holds (files : FileTree) (path : List Char) (bytes : Bytes) : Prop where
  ending : FileTree.endsInDirectory path = false
  place : ∃ names, (∀ tree : FileTree, tree.namesOn path = .ok names) ∧ files.descend names = .ok (.file bytes)

structure Puts (first second : FileTree) (path : List Char) (bytes : Bytes) : Prop where
  ending : FileTree.endsInDirectory path = false
  place : ∃ (tree : FileTree) (names : List String), tree.namesOn path = .ok names ∧
    second.descend names = .ok (.file bytes) ∧ ∀ other held, other ≠ names →
      first.descend other = .ok (.file held) → second.descend other = .ok (.file held)

section

variable {first second files : FileTree} {path other : List Char} {bytes held : Bytes}

theorem Holds.read (holds : Holds files path bytes) : files.read path = .ok bytes := by
  obtain ⟨names, leads, there⟩ := holds.place
  exact FileTree.read_of_descend (leads files) holds.ending there

theorem Puts.holds (puts : Puts first second path bytes) (forward : .parent ∉ Path.components path) :
    Holds second path bytes := by
  obtain ⟨tree, names, place, there, -⟩ := puts.place
  exact ⟨puts.ending, names, (FileTree.namesOn_of_forward place forward).2, there⟩

theorem Puts.keeps (puts : Puts first second path bytes) (holds : Holds first other held)
    {steps steps' : List Path.Component} {file file' : List Char}
    (ends : Path.components path = steps ++ [.name file])
    (ends' : Path.components other = steps' ++ [.name file']) (differ : file' ≠ file) :
    Holds second other held := by
  obtain ⟨tree, names, place, -, kept⟩ := puts.place
  obtain ⟨names', leads, there⟩ := holds.place
  refine ⟨holds.ending, names', leads, kept names' held ?_ there⟩
  -- in the tree of the write too, the names on both paths end in the names of the two files
  obtain ⟨before, last⟩ := FileTree.namesOn_concat place ends
  obtain ⟨before', last'⟩ := FileTree.namesOn_concat (leads tree) ends'
  rintro rfl
  rw [last] at last'
  exact differ (String.ofList_injective (List.cons.inj (List.append_inj' last' rfl).2).1).symm

end

/-- What was to be done stopped where something could not be written. -/
def Unwritten {α : Type} (result : Except BundleError α × Desk) : Prop :=
  ∃ place reason after, result = (.error (.fatal (.bundleWrite place reason)), after)

namespace Desk

variable {desk : Desk} {path : List Char} {bytes : Bytes}

theorem makeDirectory_cases (desk : Desk) (path : List Char) :
    Unwritten (desk.makeDirectory path) ∨
      desk.makeDirectory path = (.ok (), { desk with files := (desk.files.makeDirectory path).2 }) := by
  unfold makeDirectory
  generalize desk.files.makeDirectory path = result
  obtain ⟨_ | _, files⟩ := result
  · exact .inl ⟨_, _, _, rfl⟩
  · exact .inr rfl

theorem write_cases (desk : Desk) (path : List Char) (bytes : Bytes) :
    Unwritten (desk.write path bytes) ∨
      ∃ files, desk.write path bytes = (.ok (), { desk with files }) ∧ Puts desk.files files path bytes := by
  rcases desk.makeDirectory_cases ((Path.parent? path).getD []) with ⟨place, reason, desk', failed⟩ | made
  · refine .inl ⟨place, reason, desk', ?_⟩
    rw [write, failed]
  · unfold write
    rw [made]
    dsimp only
    generalize kept : desk.files.makeDirectory _ = result
    cases written : FileTree.write result.2 path bytes with
    | error fault => exact .inl ⟨_, _, _, rfl⟩
    | ok files =>
      obtain ⟨ending, names, place, wrote⟩ := FileTree.write_ok written
      refine .inr ⟨files, rfl, ending, result.2, names, place, FileTree.descend_writeAt wrote,
        fun other held differ there => FileTree.descend_writeAt_of_ne wrote differ ?_⟩
      rw [← kept]
      exact FileTree.descend_makeDirectory _ there

theorem write_of_put {files : FileTree} (put : desk.files.put path bytes = .ok files) :
    desk.write path bytes = (.ok (), { desk with files }) := by
  unfold FileTree.put at put
  unfold write makeDirectory
  generalize desk.files.makeDirectory ((Path.parent? path).getD []) = result at put ⊢
  obtain ⟨_ | _, made⟩ := result
  · cases put
  · dsimp only at put
    simp only [Except.mapError, put]

variable {graph : ModuleGraph} {modules : List Specifier}

theorem gather_ok (inOrder : desk.store.faults = .empty)
    (stored : ∀ specifier ∈ modules, (artifact? graph desk.store specifier).isSome = true) :
    ∃ items store, desk.gather graph modules = (.ok items, { desk with store }) ∧
      ArtifactStore.SameContents desk.store store ∧
      items = modules.map fun specifier => ⟨specifier, (artifact? graph desk.store specifier).getD []⟩ := by
  induction modules generalizing desk with
  | nil => exact ⟨[], desk.store, rfl, .refl _, rfl⟩
  | cons specifier rest ih =>
    obtain ⟨here, others⟩ := List.forall_mem_cons.1 stored
    obtain ⟨code, isCode⟩ := Option.isSome_iff_exists.1 here
    obtain ⟨output, own, blob⟩ := Option.bind_eq_some_iff.1 isCode
    obtain ⟨store, got, same⟩ := ArtifactStore.get_ok inOrder output.key
    rw [blob] at got
    have elsewhere (other : Specifier) : artifact? graph store other = artifact? graph desk.store other := by
      simp only [artifact?, same.blobs]
    obtain ⟨items, store', rest, same', are⟩ := @ih { desk with store }
      (same.setup.faults.trans inOrder) (by simpa only [elsewhere] using others)
    refine ⟨⟨specifier, code⟩ :: items, store', ?_, same.trans same', ?_⟩
    · simp only [gather, own, Option.elim_some, got, rest]
    · simp only [are, elsewhere, List.map_cons, isCode, Option.getD_some]

end Desk

/-- The code of the chunk of some modules. -/
def chunkCode (graph : ModuleGraph) (store : ArtifactStore) (modules : List Specifier) : Bytes :=
  modules.flatMap fun specifier => paragraph specifier ((artifact? graph store specifier).getD [])

/-- The code of a module is stored, and is a text. -/
def StoredText (graph : ModuleGraph) (store : ArtifactStore) (specifier : Specifier) : Prop :=
  ∃ text, artifact? graph store specifier = some (Utf8.encode text)

theorem artifact?_congr {first second : ArtifactStore} (same : ArtifactStore.SameContents first second)
    (graph : ModuleGraph) : artifact? graph second = artifact? graph first := by
  funext specifier
  simp only [artifact?, same.blobs]

structure WritesChunk (options : BundleOptions) (graph : ModuleGraph) (desk : Desk) (plan : ChunkPlan)
    (chunk : Chunk) (after : Desk) : Prop where
  isOf : chunk.plan = plan
  isName : Path.IsName chunk.file.toList
  apart : chunk.file.toList ≠ manifestFile
  store : ArtifactStore.SameContents desk.store after.store
  puts : Puts desk.files after.files (options.pathOf chunk.file) (chunkCode graph desk.store plan.modules)

/-- Chunks were written for plans. A file of another name stays, and so does each of theirs if no two have
the same name. -/
structure WritesChunks (options : BundleOptions) (graph : ModuleGraph) (desk : Desk) (waiting : List ChunkPlan)
    (chunks : List Chunk) (after : Desk) : Prop where
  plans : chunks.map Chunk.plan = waiting
  named : ∀ chunk ∈ chunks, Path.IsName chunk.file.toList ∧ chunk.file.toList ≠ manifestFile
  store : ArtifactStore.SameContents desk.store after.store
  keeps : ∀ file bytes, Path.IsName file.toList → file ∉ chunks.map (·.file) →
    Holds desk.files (options.pathOf file) bytes → Holds after.files (options.pathOf file) bytes
  holds : (chunks.map (·.file)).Nodup → ∀ chunk ∈ chunks,
    Holds after.files (options.pathOf chunk.file) (chunkCode graph desk.store chunk.modules)

theorem WritesChunks.nil {options : BundleOptions} {graph : ModuleGraph} (desk : Desk) :
    WritesChunks options graph desk [] [] desk where
  plans := rfl
  named := by simp
  store := .refl _
  keeps _ _ _ _ holds := holds
  holds := by simp

theorem WritesChunk.cons {options : BundleOptions} (absolute : Path.isAbsolute options.directory = true)
    {graph : ModuleGraph} {desk middle after : Desk} {plan : ChunkPlan} {rest : List ChunkPlan} {chunk : Chunk}
    {chunks : List Chunk} (writes : WritesChunk options graph desk plan chunk middle)
    (all : WritesChunks options graph middle rest chunks after) :
    WritesChunks options graph desk (plan :: rest) (chunk :: chunks) after := by
  have ends {file : String} (name : Path.IsName file.toList) := Path.components_clean_join absolute name
  refine
    { plans := by rw [List.map_cons, writes.isOf, all.plans]
      named := List.forall_mem_cons.2 ⟨⟨writes.isName, writes.apart⟩, all.named⟩
      store := writes.store.trans all.store
      keeps := fun file bytes name apart holds => ?keeps
      holds := fun distinct => ?holds }
  case keeps =>
    obtain ⟨differ, apart⟩ := not_or.1 (mt List.mem_cons.2 apart)
    refine all.keeps file bytes name apart (writes.puts.keeps holds (ends writes.isName) (ends name) ?_)
    exact fun equal => differ (String.toList_injective equal)
  case holds =>
    -- the first file is not written again, since all others have another name
    obtain ⟨fresh, distinct⟩ := List.nodup_cons.1 distinct
    refine List.forall_mem_cons.2 ⟨all.keeps _ _ writes.isName fresh ?_, ?_⟩
    · have modules : chunk.modules = plan.modules := by rw [← writes.isOf]; rfl
      rw [modules]
      exact writes.puts.holds (Path.notMem_components_clean (Path.isAbsolute_join absolute _))
    · simpa only [chunkCode, artifact?_congr writes.store graph] using all.holds distinct

section

variable {options : BundleOptions} (absolute : Path.isAbsolute options.directory = true)
  (emits : options.emitter = concatenate) {graph : ModuleGraph} {desk : Desk}
  (inOrder : desk.store.faults = .empty)

include absolute

section

variable {plan : ChunkPlan} (plain : '/' ∉ plan.name.toList) {items : List ChunkModule} {read after : Desk}
  {code : List Char} (gathered : desk.gather graph plan.modules = (.ok items, read))
  (emitted : options.emitter { name := plan.name, kind := plan.kind, modules := items } = .ok code)

include plain gathered emitted

/-- Once its code is made, a chunk is written below the output directory. -/
theorem writeChunk_of_written
    (written : read.write (options.pathOf (chunkFile plan.name code options.metadata)) (Utf8.encode code) =
      (.ok (), after)) :
    writeChunk options graph desk plan =
      (.ok { name := plan.name, file := chunkFile plan.name code options.metadata, kind := plan.kind
             modules := plan.modules }, after) := by
  have path := outputPath?_name absolute (isName_chunkFile plain code options.metadata)
  rw [chunkFile] at path written ⊢
  simp only [writeChunk, gathered, emitted, path, written]

theorem writeChunk_of_unwritten {error : BundleError}
    (failed : read.write (options.pathOf (chunkFile plan.name code options.metadata)) (Utf8.encode code) =
      (.error error, after)) :
    writeChunk options graph desk plan = (.error error, after) := by
  have path := outputPath?_name absolute (isName_chunkFile plain code options.metadata)
  rw [chunkFile] at path failed
  simp only [writeChunk, gathered, emitted, path, failed]

end

include emits inOrder

theorem writeChunk_cases {plan : ChunkPlan} (plain : '/' ∉ plan.name.toList)
    (stored : ∀ specifier ∈ plan.modules, StoredText graph desk.store specifier) :
    Unwritten (writeChunk options graph desk plan) ∨
      ∃ chunk after, writeChunk options graph desk plan = (.ok chunk, after) ∧
        WritesChunk options graph desk plan chunk after := by
  obtain ⟨items, store, gathered, same, are⟩ := desk.gather_ok inOrder fun specifier member =>
    (stored specifier member).elim fun text is => by rw [is]; rfl
  have texts : ∀ item ∈ items, ∃ text, item.code = Utf8.encode text := by
    intro item member
    rw [are] at member
    obtain ⟨specifier, inside, rfl⟩ := List.mem_map.1 member
    obtain ⟨text, is⟩ := stored specifier inside
    exact ⟨text, by rw [is, Option.getD_some]⟩
  obtain ⟨code, emitted, bytes⟩ := concatenate_ok plan.name plan.kind texts
  have isCode : Utf8.encode code = chunkCode graph desk.store plan.modules := by
    rw [bytes, are, List.flatMap_map, chunkCode]
  rw [← emits] at emitted
  rcases Desk.write_cases { desk with store } (options.pathOf (chunkFile plan.name code options.metadata))
      (Utf8.encode code) with ⟨place, reason, desk', failed⟩ | ⟨files, wrote, puts⟩
  · exact .inl ⟨place, reason, desk', writeChunk_of_unwritten absolute plain gathered emitted failed⟩
  · refine .inr ⟨_, _, writeChunk_of_written absolute plain gathered emitted wrote, ?_⟩
    exact ⟨rfl, isName_chunkFile plain _ _, chunkFile_ne_manifestFile _ _, same, isCode ▸ puts⟩

theorem writeChunks_cases {waiting : List ChunkPlan} (plain : ∀ plan ∈ waiting, '/' ∉ plan.name.toList)
    (stored : ∀ plan ∈ waiting, ∀ specifier ∈ plan.modules, StoredText graph desk.store specifier) :
    Unwritten (writeChunks options graph desk waiting) ∨
      ∃ chunks after, writeChunks options graph desk waiting = (.ok chunks, after) ∧
        WritesChunks options graph desk waiting chunks after := by
  induction waiting generalizing desk with
  | nil =>
    exact .inr ⟨[], desk, rfl, .nil desk⟩
  | cons plan rest ih =>
    obtain ⟨plain', plains⟩ := List.forall_mem_cons.1 plain
    obtain ⟨stored', later⟩ := List.forall_mem_cons.1 stored
    rcases writeChunk_cases absolute emits inOrder plain' stored' with
      ⟨place, reason, desk', failed⟩ | ⟨chunk, middle, wrote, writes⟩
    · refine .inl ⟨place, reason, desk', ?_⟩
      rw [writeChunks, failed]
    rw [writeChunks, wrote]
    dsimp only
    have same := artifact?_congr writes.store graph
    rcases ih (writes.store.setup.faults.trans inOrder) plains (by simpa only [StoredText, same] using later) with
      ⟨place, reason, desk', failed⟩ | ⟨chunks, after, wrote', all⟩
    · exact .inl ⟨place, reason, desk', by rw [failed]⟩
    exact .inr ⟨chunk :: chunks, after, by rw [wrote'], writes.cons absolute all⟩

/-- A bundle of what passes the gate is there in whole unless something could not be written. -/
theorem bundle_cases {entries : List EntryPoint} (passes : check graph entries = .ok ())
    (plain : ∀ plan ∈ plans (analyze graph entries), '/' ∉ plan.name.toList)
    (stored : ∀ plan ∈ plans (analyze graph entries), ∀ specifier ∈ plan.modules,
      StoredText graph desk.store specifier) :
    Unwritten (bundle options graph entries desk) ∨
      ∃ output after, bundle options graph entries desk = (.ok output, after) ∧
        output.manifest.chunks.map Chunk.plan = plans (analyze graph entries) ∧
        ((output.manifest.chunks.map (·.file)).Nodup → ∀ chunk ∈ output.manifest.chunks,
          after.files.read (options.pathOf chunk.file) = .ok (chunkCode graph desk.store chunk.modules)) := by
  unfold bundle
  rw [passes]
  dsimp only
  rcases desk.makeDirectory_cases options.directory with ⟨place, reason, desk', failed⟩ | made
  · exact .inl ⟨place, reason, desk', by rw [failed]⟩
  rw [made]
  dsimp only
  generalize (desk.files.makeDirectory options.directory).2 = files
  have written := @writeChunks_cases options absolute emits graph { desk with files } inOrder _ plain stored
  rcases written with ⟨place, reason, desk', failed⟩ | ⟨chunks, middle, wrote, all⟩
  · exact .inl ⟨place, reason, desk', by rw [failed]⟩
  rw [wrote]
  dsimp only
  rcases middle.write_cases (Path.join options.directory manifestFile)
      (Text.bytes (BundleManifest.render ⟨chunks⟩)) with ⟨place, reason, desk', failed⟩ | ⟨listed, wrote', puts⟩
  · exact .inl ⟨place, reason, desk', by rw [failed]⟩
  rw [wrote']
  -- the manifest is written last, and no chunk has its name
  refine .inr ⟨_, _, rfl, all.plans, fun distinct chunk member => Holds.read ?_⟩
  obtain ⟨name, apart⟩ := all.named chunk member
  exact puts.keeps (all.holds distinct chunk member) (Path.components_join absolute isName_manifestFile)
    (Path.components_clean_join absolute name) apart

end

end Bundle

end ModuleBuild
