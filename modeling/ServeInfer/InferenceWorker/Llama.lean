import Mathlib.Data.Nat.Notation
import Mathlib.Data.Int.Notation
import Mathlib.Data.List.Basic

/-!
# The library that runs the model

What `llama.cpp` does for a request. Its answers are read from outside, by a state that
holds whatever they depend on besides the memory of the context; the memory itself is
kept by the contract of `llama_decode`. A batch that is longer than the context allows
fails an assertion, which ends the process.
-/

namespace ServeInfer.InferenceWorker

/-- `llama_token`. -/
abbrev Token := ℤ

/-- `llama_context`: the tokens in its memory, and how many a batch and a micro-batch may have. -/
structure Context where
  memory : List Token := []
  nBatch : ℕ
  nUbatch : ℕ
  deriving DecidableEq, Repr

/-- The constructor of `llama_context`, with `n_ctx` given. -/
def Context.ofParams (nCtx nBatch nUbatch : ℕ) : Context where
  nBatch := min nCtx nBatch
  nUbatch := min (min nCtx nBatch) (if nUbatch = 0 then nBatch else nUbatch)

/-- The answers of the library. `count` and `fill` are `llama_tokenize` without and with a buffer,
`valid` is the check of a batch, `status` what the computation of a batch returns and `processed`
how many micro-batches it has come through, `after` what the outside has become by then. -/
structure Llama (σ : Type) where
  count : σ → String → ℤ
  fill : σ → String → ℕ → ℤ × (ℕ → Token)
  valid : σ → List Token → List Token → Bool
  status : σ → List Token → List Token → ℤ
  processed : σ → List Token → List Token → ℕ
  after : σ → List Token → List Token → σ
  sample : σ → List Token → Token × σ
  isEog : Token → Bool
  piece : Token → String

/-- A status after which a batch may have been left half done. -/
def Fatal (rc : ℤ) : Prop := rc = 2 ∨ rc < -1

instance (rc : ℤ) : Decidable (Fatal rc) := inferInstanceAs (Decidable (_ ∨ _))

/-- What is in the memory after a batch: all of it, nothing of it, or the micro-batches before the
one that failed. -/
def Context.kept (ctx : Context) (batch : List Token) (rc : ℤ) (processed : ℕ) : List Token :=
  if rc = 0 then ctx.memory ++ batch
  else if rc = 1 ∨ rc = -1 then ctx.memory
  else ctx.memory ++ batch.take (min processed ((batch.length - 1) / ctx.nUbatch) * ctx.nUbatch)

variable {σ : Type}

/-- What a request has done so far with its context: the batches with the status of each, which
fails to where the assertion does, and the pieces of the answer. -/
structure Session (σ : Type) where
  world : σ
  ctx : Context
  decodes : List (List Token × Option ℤ) := []
  pieces : List String := []

namespace Session

variable (lib : Llama σ)

/-- `llama_decode`. -/
def decode (s : Session σ) (batch : List Token) : Option ℤ × Session σ :=
  if batch.isEmpty || !lib.valid s.world s.ctx.memory batch then
    (some (-1), { s with decodes := s.decodes ++ [(batch, some (-1))] })
  else if s.ctx.nBatch < batch.length then
    (none, { s with decodes := s.decodes ++ [(batch, none)] })
  else
    let rc := lib.status s.world s.ctx.memory batch
    (some rc,
      { s with
        world := lib.after s.world s.ctx.memory batch
        ctx := { s.ctx with
          memory := s.ctx.kept batch rc (lib.processed s.world s.ctx.memory batch) }
        decodes := s.decodes ++ [(batch, some rc)] })

/-- The token that `llama_sampler_sample` chooses. -/
def token (s : Session σ) : Token := (lib.sample s.world s.ctx.memory).1

/-- A token has been chosen. -/
def sampled (s : Session σ) : Session σ :=
  { s with world := (lib.sample s.world s.ctx.memory).2 }

/-- `onToken`, for a piece that is not empty. -/
def emit (s : Session σ) (piece : String) : Session σ :=
  if piece.isEmpty then s else { s with pieces := s.pieces ++ [piece] }

/-- `llama_memory_clear`. -/
def clear (s : Session σ) : Session σ := { s with ctx := { s.ctx with memory := [] } }

end Session

end ServeInfer.InferenceWorker
