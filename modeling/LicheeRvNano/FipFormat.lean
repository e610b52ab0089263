import LicheeRvNano.ByteImage

/-!
# The format of a FIP

The three headers of a firmware image package, as `platform_def.h` and `bl2.h`
declare them for the boot loader. All three are packed structs.
-/

namespace LicheeRvNano

/-- The unit in which the boot devices are read. -/
abbrev BLOCK_SIZE : Nat := 512

/-! ## `struct fip_param1` -/

/-- The members of `struct fip_param1`, in order. -/
inductive Param1Member where
  | magic1 | magic2 | paramCksum | nandInfo | spinorInfo | fipFlags | chipConfSize
  | blcpImgCksum | blcpImgSize | blcpImgRunaddr | blcpParamLoadaddr | blcpParamSize
  | bl2ImgCksum | bl2ImgSize | bldImgSize | param2Loadaddr | reserved1 | chipConf
  | blEk | rootPk | blPk | blPkSig | chipConfSig | bl2ImgSig | blcpImgSig
  deriving DecidableEq

/-- Each member with its size in bytes. -/
def fipParam1Layout : Layout Param1Member :=
  [(.magic1, 8), (.magic2, 4), (.paramCksum, 4), (.nandInfo, 128), (.spinorInfo, 36),
   (.fipFlags, 8), (.chipConfSize, 4), (.blcpImgCksum, 4), (.blcpImgSize, 4),
   (.blcpImgRunaddr, 4), (.blcpParamLoadaddr, 4), (.blcpParamSize, 4), (.bl2ImgCksum, 4),
   (.bl2ImgSize, 4), (.bldImgSize, 4), (.param2Loadaddr, 4), (.reserved1, 4),
   (.chipConf, 8 * 95), (.blEk, 32), (.rootPk, 512), (.blPk, 512), (.blPkSig, 512),
   (.chipConfSig, 512), (.bl2ImgSig, 512), (.blcpImgSig, 512)]

/-- What the ROM loads for Param1. -/
abbrev PARAM1_SIZE : Nat := 0x1000

/-! ## `struct fip_param2` -/

/-- The members of `struct fip_param2`, in order; those of its nested structs carry the name of
the image. -/
inductive Param2Member where
  | magic1 | param2Cksum | reserved1
  | ddrParamCksum | ddrParamLoadaddr | ddrParamSize | ddrParamReserved
  | blcp2ndCksum | blcp2ndLoadaddr | blcp2ndSize | blcp2ndRunaddr
  | monitorCksum | monitorLoadaddr | monitorSize | monitorRunaddr
  | loader2ndReserved0 | loader2ndLoadaddr | loader2ndReserved1 | loader2ndReserved2
  | reserved4
  deriving DecidableEq

/-- Each member with its size in bytes. -/
def fipParam2Layout : Layout Param2Member :=
  [(.magic1, 8), (.param2Cksum, 4), (.reserved1, 4),
   (.ddrParamCksum, 4), (.ddrParamLoadaddr, 4), (.ddrParamSize, 4), (.ddrParamReserved, 4),
   (.blcp2ndCksum, 4), (.blcp2ndLoadaddr, 4), (.blcp2ndSize, 4), (.blcp2ndRunaddr, 4),
   (.monitorCksum, 4), (.monitorLoadaddr, 4), (.monitorSize, 4), (.monitorRunaddr, 4),
   (.loader2ndReserved0, 4), (.loader2ndLoadaddr, 4), (.loader2ndReserved1, 4),
   (.loader2ndReserved2, 4), (.reserved4, 4016)]

/-- What the loader asks the ROM to load for Param2. -/
abbrev PARAM2_SIZE : Nat := 0x1000

/-- "CVLD02\n" as a little-endian number. -/
abbrev FIP_PARAM2_MAGIC1 : Nat := 0x000A3230444c5643

/-! ## `struct loader_2nd_header` -/

/-- The members of `struct loader_2nd_header`, in order. -/
inductive LoaderMember where
  | jump0 | magic | cksum | size | runaddr | reserved1 | reserved2
  deriving DecidableEq

/-- Each member with its size in bytes. -/
def loader2ndHeader : Layout LoaderMember :=
  [(.jump0, 4), (.magic, 4), (.cksum, 4), (.size, 4), (.runaddr, 8), (.reserved1, 4),
   (.reserved2, 4)]

/-- The magic numbers of the two compressions, "B3MA" and "B3Z4". -/
abbrev LOADER_2ND_MAGIC_LZMA : Nat := 0x414d3342
abbrev LOADER_2ND_MAGIC_LZ4 : Nat := 0x345a3342

-- The sizes that the loader passes to the ROM are those of the structs.
example : fipParam1Layout.size = PARAM1_SIZE := by decide
example : fipParam2Layout.size = PARAM2_SIZE := by decide

end LicheeRvNano
