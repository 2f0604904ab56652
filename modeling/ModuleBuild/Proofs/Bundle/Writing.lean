import ModuleBuild.Bundle.Chunk
/-!
What a bundle that could be written consists of: a chunk for each plan, and a manifest that lists them.
-/

namespace ModuleBuild.Bundle

variable {options : BundleOptions} {graph : ModuleGraph} {desk after : Desk}

def Chunk.plan (chunk : Chunk) : ChunkPlan :=
  { name := chunk.name, kind := chunk.kind, modules := chunk.modules }

theorem writeChunk_ok {plan : ChunkPlan} {chunk : Chunk}
    (written : writeChunk options graph desk plan = (.ok chunk, after)) :
    ∃ modules read code path, desk.gather graph plan.modules = (.ok modules, read) ∧
      options.emitter { name := plan.name, kind := plan.kind, modules } = .ok code ∧
      chunk = { name := plan.name, file := s!"{plan.name}.{chunkHash code options.metadata}.js",
                kind := plan.kind, modules := plan.modules } ∧
      outputPath? options.directory chunk.file.toList = some path ∧
      read.write path (Utf8.encode code) = (.ok (), after) := by
  rw [writeChunk] at written
  split at written
  · cases written
  · next modules read gathered =>
    split at written
    · cases written
    · next code emitted =>
      dsimp only at written
      split at written
      · cases written
      · next path inside =>
        split at written
        · cases written
        · next stored =>
          cases written
          exact ⟨modules, read, code, path, gathered, emitted, rfl, inside, stored⟩

theorem writeChunks_cons_ok {plan : ChunkPlan} {rest : List ChunkPlan} {chunks : List Chunk}
    (written : writeChunks options graph desk (plan :: rest) = (.ok chunks, after)) :
    ∃ chunk later middle, writeChunk options graph desk plan = (.ok chunk, middle) ∧
      writeChunks options graph middle rest = (.ok later, after) ∧ chunks = chunk :: later := by
  rw [writeChunks] at written
  split at written
  · cases written
  · next chunk middle first =>
    split at written
    · cases written
    · next later _ others =>
      cases written
      exact ⟨chunk, later, middle, first, others, rfl⟩

theorem writeChunks_plans {waiting : List ChunkPlan} {chunks : List Chunk}
    (written : writeChunks options graph desk waiting = (.ok chunks, after)) :
    chunks.map Chunk.plan = waiting := by
  induction waiting generalizing desk chunks with
  | nil =>
    cases written
    rfl
  | cons plan rest ih =>
    obtain ⟨chunk, later, middle, first, others, rfl⟩ := writeChunks_cons_ok written
    obtain ⟨_, _, _, _, -, -, rfl, -⟩ := writeChunk_ok first
    rw [List.map_cons, ih others, Chunk.plan]

theorem bundle_ok {entries : List EntryPoint} {output : BundleOutput}
    (written : bundle options graph entries desk = (.ok output, after)) :
    ∃ ready middle, check graph entries = .ok () ∧ output.analysis = analyze graph entries ∧
      desk.makeDirectory options.directory = (.ok (), ready) ∧
      writeChunks options graph ready (plans output.analysis) = (.ok output.manifest.chunks, middle) ∧
      output.manifestPath = Path.join options.directory manifestFile ∧
      middle.write output.manifestPath (Text.bytes output.manifest.render) = (.ok (), after) := by
  rw [bundle] at written
  split at written
  · cases written
  · next passed =>
    dsimp only at written
    split at written
    · cases written
    · next ready made =>
      split at written
      · cases written
      · next chunks middle stored =>
        split at written
        · cases written
        · next listed =>
          cases written
          exact ⟨ready, middle, passed, rfl, made, stored, rfl, listed⟩

end ModuleBuild.Bundle
