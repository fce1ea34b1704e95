import Amlnf.Dev.Phydev

set_option relaxedAutoImplicit false
set_option autoImplicit false

/-!
# The environment device

`amlnf_env.c`: a character device over the record that holds the environment of the boot
loader. A write reads the whole record, replaces a range of it and saves the whole again.

## Main definitions

* `EnvMem` — which of the buffers a call asks for it gets.
* `amlnfEnvRead`, `amlnfEnvSave` — the record in whole.
* `ubootEnvRead`, `ubootEnvWrite` — the operations of the character device.
* `amlUbootenvInit` — finding the record at bring-up.

## Design

The buffers of the device are a page longer than the record; the bytes of the extra page, which
`amlnf_env_save` leaves unset, are taken to be zero. Registering the character device is taken
to succeed.
-/

namespace Amlnf

open Act

/-- The first `n` bytes of a buffer. -/
def Buf.bytes (buf : Buf) (n : ℕ) : List UInt8 := (List.range n).map buf

/-- Two buffers that agree below `n` have the same bytes. -/
lemma bytes_congr {d d' : Buf} {n : ℕ} (h : ∀ i < n, d i = d' i) : d.bytes n = d'.bytes n :=
  List.map_congr_left fun i hi => h i (List.mem_range.mp hi)

/-- `CONFIG_ENV_SIZE`. -/
def configEnvSize : ℕ := 64 * 1024

/-- `ENOMEM`. -/
def eNOMEM : ℤ := 12

/-- Which calls of `vmalloc` succeed: the one of the device operation, the one of `amlnf_env_read`
and the one of `amlnf_env_save`. -/
structure EnvMem where
  own : Bool := true
  read : Bool := true
  save : Bool := true

/-- `amlnf_env_read` of the whole record into `buf`, which is left alone on failure. `mem` says
whether its buffer is to be had; without a record none is needed. -/
def amlnfEnvRead (fl : Flash) (mem : Bool) (buf : Buf) : Act St (ℤ × Buf) := do
  let s ← get
  if ¬(s.info .nenv).argValid then
    pure (0, blit buf 0 configEnvSize fun _ => 0)
  else if ¬mem then
    pure (-1, buf)
  else
    let (ret, env) ← amlnandReadInfoByName fl .nenv (fun _ => 0) configEnvSize
    if ret ≠ 0 then pure (-eFAULT, buf) else pure (0, blit buf 0 configEnvSize env)

/-- `amlnf_env_save` of a whole record. -/
def amlnfEnvSave (fl : Flash) (mem : Bool) (buf : Buf) : Act St ℤ := do
  if ¬mem then
    pure (-1)
  else
    let ret ← saveInfo fl .nenv (blit (fun _ => 0) 0 configEnvSize buf) configEnvSize
    if ret ≠ 0 then pure (-eFAULT) else pure 0

/-- How much of `count` bytes at `pos` lies inside the record. -/
def envCount (pos count : ℕ) : ℕ :=
  if configEnvSize < pos + count then configEnvSize - pos else count

/-- `uboot_env_read`: the return value, the position and the bytes for the user. -/
def ubootEnvRead (fl : Flash) (mem : EnvMem) (pos count : ℕ) : Act St (ℤ × ℕ × Buf) := do
  if pos = configEnvSize then
    pure (0, pos, fun _ => 0)
  else if configEnvSize ≤ pos then
    pure (-eFAULT, pos, fun _ => 0)
  else if ¬mem.own then
    pure (-eNOMEM, pos, fun _ => 0)
  else
    withDevice .reading do
      let (ret, env) ← amlnfEnvRead fl mem.read fun _ => 0
      if ret ≠ 0 then
        pure (0, pos, fun _ => 0)
      else
        pure (envCount pos count, pos + envCount pos count, fun i => env (pos + i))

/-- `uboot_env_write`: the return value and the position. A failed save does not show in the
return value. -/
def ubootEnvWrite (fl : Flash) (mem : EnvMem) (pos count : ℕ) (data : Buf) :
    Act St (ℤ × ℕ) := do
  if pos = configEnvSize then
    pure (0, pos)
  else if configEnvSize ≤ pos then
    pure (-eFAULT, pos)
  else if ¬mem.own then
    pure (-eNOMEM, pos)
  else
    withDevice .writing do
      let (ret, env) ← amlnfEnvRead fl mem.read fun _ => 0
      if ret ≠ 0 then
        pure (0, pos)
      else
        let ret ← amlnfEnvSave fl mem.save (blit env pos (envCount pos count) data)
        if ret ≠ 0 then
          pure (envCount pos count, pos)
        else
          pure (envCount pos count, pos + envCount pos count)

/-- `aml_ubootenv_init`. -/
def amlUbootenvInit (fl : Flash) : Act St ℤ := do
  let (ret, _) ← amlnandInfoInit fl .nenv (fun _ => 0) configEnvSize
  if ret < 0 then pure (-1) else pure 0

end Amlnf
