import RmtDos.Client.HostList

/-! The graphics frame that the client serves to a browser, and how the page decodes it. -/
namespace RmtDos

def hasGraphics (hosts : HostList) (i : Fin 16) : Bool := (hosts.slot i).any RemoteHost.cgaGraphicsValid

/-- The active host if it has graphics, else the first host that has. -/
def webFindGraphicsHost (c : Client) : Option (Fin 16) :=
  match c.activeHost with
  | some i => if hasGraphics c.hosts i then some i else (List.finRange 16).find? (hasGraphics c.hosts)
  | none => (List.finRange 16).find? (hasGraphics c.hosts)

def headerU16 (value : UInt16) : List UInt8 := [(value &&& 0xff).toUInt8,(value >>> 8).toUInt8]

def headerU32 (value : UInt32) : List UInt8 :=
  [(value &&& 0xff).toUInt8,(value >>> 8 &&& 0xff).toUInt8,(value >>> 16 &&& 0xff).toUInt8,
    (value >>> 24 &&& 0xff).toUInt8]

def frameHeader (rh : RemoteHost) : List UInt8 :=
  [0x43,0x47,0x41,0x31,rh.cgaGraphicsMode,rh.cgaGraphicsBpp] ++ headerU16 rh.cgaGraphicsWidth ++
    headerU16 rh.cgaGraphicsHeight ++ headerU32 rh.cgaGraphicsGeneration ++ headerU16 16000

/-- The body of the response to `GET /frame`; none is `204 No Content`. -/
def webSendFrame (c : Client) : Option (List UInt8) := do
  let i ← webFindGraphicsHost c
  let rh ← c.hosts.slot i
  pure (frameHeader rh ++ List.ofFn rh.cgaGraphicsBuffer)

/-! The script of the page. An element past the end of an array is `undefined`, which the shift
operators take as 0. -/

def jsByte (data : List UInt8) (k : ℕ) : ℕ := (data[k]?.map UInt8.toNat).getD 0

def le16 (d : List UInt8) (o : ℕ) : ℕ := jsByte d o+256*jsByte d (o+1)

/-- The start of row `y`. -/
def rowStart (y : ℕ) : ℕ := (if y &&& 1 ≠ 0 then 0x2000 else 0)+(y >>> 1)*80

def pix1 (data : List UInt8) (y px : ℕ) : ℕ :=
  (jsByte data (rowStart y+(px >>> 3)) >>> (7-(px &&& 7))) &&& 1

def pix2 (data : List UInt8) (y px : ℕ) : ℕ :=
  (jsByte data (rowStart y+(px >>> 2)) >>> (6-(px &&& 3)*2)) &&& 3

/-- What the page draws: the size, and the value that `pix1` or `pix2` decodes for each pixel. -/
structure PagePicture where
  mode : ℕ
  w : ℕ
  h : ℕ
  value : ℕ → ℕ → ℕ

/-- The body of `tick`; none where it returns or an exception ends it. -/
def tick (a : List UInt8) : Option PagePicture :=
  let bytes := le16 a 14
  if a.length < 16 ∨ jsByte a 0 ≠ 67 ∨ jsByte a 1 ≠ 71 ∨ jsByte a 2 ≠ 65 ∨ a.length < 16+bytes then
    none
  else
    let data := (a.drop 16).take bytes
    some ⟨jsByte a 4,le16 a 6,le16 a 8,if jsByte a 5 = 1 then pix1 data else pix2 data⟩

end RmtDos
