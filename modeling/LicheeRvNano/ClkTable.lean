import LicheeRvNano.ClkIp

/-!
# U-Boot's clock driver: the clocks of the chip

The rows of `clk-cv1800b.c`, each written as the macro it is an application of, in the order
in which `cv1800b_register_clk` goes through the arrays. `clkRow_id` is the lookup that
`clk_get_by_id` makes, `register_order` says that a clock can be registered when its turn
comes, whatever source its mux has.
-/

namespace LicheeRvNano

/-- The clocks by their private ids: `CV1800B_CLK_OSC`, `CV1800B_CLK_BYPASS`, and from three
on those of the device tree. -/
inductive ClkId where
  | osc | bypass | clkMpll | clkTpll | clkFpll | clkMipimpll | clkA0pll | clkDisppll | clkCam0pll
  | clkCam1pll | clkMipimpllD3 | clkCam0pllD2 | clkCam0pllD3 | clkTpu | clkTpuFab | clkAhbRom
  | clkDdrAxiReg | clkRtc25m | clkSrcRtcSys0 | clkTempsen | clkSaradc | clkEfuse | clkApbEfuse
  | clkDebug | clkApDebug | clkXtalMisc | clkAxi4Emmc | clkEmmc | clkEmmc100k | clkAxi4Sd0
  | clkSd0 | clkSd0_100k | clkAxi4Sd1 | clkSd1 | clkSd1_100k | clkSpiNand | clkEth0_500m
  | clkAxi4Eth0 | clkEth1_500m | clkAxi4Eth1 | clkApbGpio | clkApbGpioIntr | clkGpioDb | clkAhbSf
  | clkAhbSf1 | clkA24m | clkAudsrc | clkApbAudsrc | clkSdmaAxi | clkSdmaAud0 | clkSdmaAud1
  | clkSdmaAud2 | clkSdmaAud3 | clkI2c | clkApbI2c | clkApbI2c0 | clkApbI2c1 | clkApbI2c2
  | clkApbI2c3 | clkApbI2c4 | clkApbWdt | clkPwmSrc | clkPwm | clkSpi | clkApbSpi0 | clkApbSpi1
  | clkApbSpi2 | clkApbSpi3 | clk1m | clkCam0_200 | clkPm | clkTimer0 | clkTimer1 | clkTimer2
  | clkTimer3 | clkTimer4 | clkTimer5 | clkTimer6 | clkTimer7 | clkUart0 | clkApbUart0 | clkUart1
  | clkApbUart1 | clkUart2 | clkApbUart2 | clkUart3 | clkApbUart3 | clkUart4 | clkApbUart4
  | clkApbI2s0 | clkApbI2s1 | clkApbI2s2 | clkApbI2s3 | clkAxi4Usb | clkApbUsb | clkUsb125m
  | clkUsb33k | clkUsb12m | clkAxi4 | clkAxi6 | clkDsiEsc | clkAxiVip | clkSrcVipSys0
  | clkSrcVipSys1 | clkSrcVipSys2 | clkSrcVipSys3 | clkSrcVipSys4 | clkCsiBeVip | clkCsiMac0Vip
  | clkCsiMac1Vip | clkCsiMac2Vip | clkCsi0RxVip | clkCsi1RxVip | clkIspTopVip | clkImgDVip
  | clkImgVVip | clkScTopVip | clkScDVip | clkScV1Vip | clkScV2Vip | clkScV3Vip | clkDwaVip
  | clkBtVip | clkDispVip | clkDsiMacVip | clkLvds0Vip | clkLvds1Vip | clkPadViVip | clkPadVi1Vip
  | clkPadVi2Vip | clkCfgRegVip | clkVipIp0 | clkVipIp1 | clkVipIp2 | clkVipIp3 | clkIveVip
  | clkRawVip | clkOsdcVip | clkCam0Vip | clkAxiVideoCodec | clkVcSrc0 | clkVcSrc1 | clkVcSrc2
  | clkH264c | clkApbH264c | clkH265c | clkApbH265c | clkJpeg | clkApbJpeg | clkCam0 | clkCam1
  | clkWgn | clkWgn0 | clkWgn1 | clkWgn2 | clkKeyscan | clkCfgRegVc | clkC906_0 | clkC906_1
  | clkA53 | clkCpuAxi0 | clkCpuGic | clkXtalAp | clkDispSrcVip
  deriving DecidableEq

namespace ClkTable

abbrev CLK_SET_RATE_PARENT : BitVec 32 := 0x4
abbrev CLK_IGNORE_UNUSED : BitVec 32 := 0x8
abbrev CLK_GET_RATE_NOCACHE : BitVec 32 := 0x40
abbrev CLK_IS_CRITICAL : BitVec 32 := 0x800

abbrev REG_PLL_G2_CTRL : Nat := 0x800
abbrev REG_MIPIMPLL_CSR : Nat := 0x808
abbrev REG_A0PLL_CSR : Nat := 0x80c
abbrev REG_DISPPLL_CSR : Nat := 0x810
abbrev REG_CAM0PLL_CSR : Nat := 0x814
abbrev REG_CAM1PLL_CSR : Nat := 0x818
abbrev REG_PLL_G2_SSC_SYN_CTRL : Nat := 0x840
abbrev REG_A0PLL_SSC_SYN_SET : Nat := 0x854
abbrev REG_DISPPLL_SSC_SYN_SET : Nat := 0x864
abbrev REG_CAM0PLL_SSC_SYN_SET : Nat := 0x874
abbrev REG_CAM1PLL_SSC_SYN_SET : Nat := 0x884
abbrev REG_MIPIMPLL_CLK_CSR : Nat := 0x8a0
abbrev REG_CAM0PLL_CLK_CSR : Nat := 0x8ac
abbrev REG_CLK_CAM0_SRC_DIV : Nat := 0x8c0
abbrev REG_CLK_CAM1_SRC_DIV : Nat := 0x8c4
abbrev REG_PLL_G6_CTRL : Nat := 0x900
abbrev REG_MPLL_CSR : Nat := 0x908
abbrev REG_TPLL_CSR : Nat := 0x90c
abbrev REG_FPLL_CSR : Nat := 0x910
abbrev REG_PLL_G6_SSC_SYN_CTRL : Nat := 0x940
abbrev REG_MPLL_SSC_SYN_SET : Nat := 0x964
abbrev REG_TPLL_SSC_SYN_SET : Nat := 0x974
abbrev REG_CLK_EN_0 : Nat := 0x000
abbrev REG_CLK_EN_1 : Nat := 0x004
abbrev REG_CLK_EN_2 : Nat := 0x008
abbrev REG_CLK_EN_3 : Nat := 0x00c
abbrev REG_CLK_EN_4 : Nat := 0x010
abbrev REG_CLK_SEL_0 : Nat := 0x020
abbrev REG_CLK_BYP_0 : Nat := 0x030
abbrev REG_CLK_BYP_1 : Nat := 0x034
abbrev REG_DIV_CLK_A53_0 : Nat := 0x040
abbrev REG_DIV_CLK_A53_1 : Nat := 0x044
abbrev REG_DIV_CLK_CPU_AXI0 : Nat := 0x048
abbrev REG_DIV_CLK_CPU_GIC : Nat := 0x050
abbrev REG_DIV_CLK_TPU : Nat := 0x054
abbrev REG_DIV_CLK_EMMC : Nat := 0x064
abbrev REG_DIV_CLK_EMMC_100K : Nat := 0x06c
abbrev REG_DIV_CLK_SD0 : Nat := 0x070
abbrev REG_DIV_CLK_SD0_100K : Nat := 0x078
abbrev REG_DIV_CLK_SD1 : Nat := 0x07c
abbrev REG_DIV_CLK_SD1_100K : Nat := 0x084
abbrev REG_DIV_CLK_SPI_NAND : Nat := 0x088
abbrev REG_DIV_CLK_GPIO_DB : Nat := 0x094
abbrev REG_DIV_CLK_SDMA_AUD0 : Nat := 0x098
abbrev REG_DIV_CLK_SDMA_AUD1 : Nat := 0x09c
abbrev REG_DIV_CLK_SDMA_AUD2 : Nat := 0x0a0
abbrev REG_DIV_CLK_SDMA_AUD3 : Nat := 0x0a4
abbrev REG_DIV_CLK_CAM0_200 : Nat := 0x0a8
abbrev REG_DIV_CLK_AXI4 : Nat := 0x0b8
abbrev REG_DIV_CLK_AXI6 : Nat := 0x0bc
abbrev REG_DIV_CLK_DSI_ESC : Nat := 0x0c4
abbrev REG_DIV_CLK_AXI_VIP : Nat := 0x0c8
abbrev REG_DIV_CLK_SRC_VIP_SYS_0 : Nat := 0x0d0
abbrev REG_DIV_CLK_SRC_VIP_SYS_1 : Nat := 0x0d8
abbrev REG_DIV_CLK_DISP_SRC_VIP : Nat := 0x0e0
abbrev REG_DIV_CLK_AXI_VIDEO_CODEC : Nat := 0x0e4
abbrev REG_DIV_CLK_VC_SRC0 : Nat := 0x0ec
abbrev REG_DIV_CLK_1M : Nat := 0x0fc
abbrev REG_DIV_CLK_SPI : Nat := 0x100
abbrev REG_DIV_CLK_I2C : Nat := 0x104
abbrev REG_DIV_CLK_SRC_VIP_SYS_2 : Nat := 0x110
abbrev REG_DIV_CLK_AUDSRC : Nat := 0x118
abbrev REG_DIV_CLK_PWM_SRC_0 : Nat := 0x120
abbrev REG_DIV_CLK_AP_DEBUG : Nat := 0x128
abbrev REG_DIV_CLK_RTCSYS_SRC_0 : Nat := 0x12c
abbrev REG_DIV_CLK_C906_0_0 : Nat := 0x130
abbrev REG_DIV_CLK_C906_0_1 : Nat := 0x134
abbrev REG_DIV_CLK_C906_1_0 : Nat := 0x138
abbrev REG_DIV_CLK_C906_1_1 : Nat := 0x13c
abbrev REG_DIV_CLK_SRC_VIP_SYS_3 : Nat := 0x140
abbrev REG_DIV_CLK_SRC_VIP_SYS_4 : Nat := 0x144

/-- `struct cv1800b_mmux_parent_info`. -/
structure MmuxParent where
  id : ClkId
  clkSel : Bool
  index : Nat

/-- The registers of a clock by its driver. -/
inductive ClkHw where
  | fixedRate
  | gate (gate : ClkRegbit)
  | div (gate : ClkRegbit) (div : ClkDivider)
  | bypassDiv (gate : ClkRegbit) (div : ClkDivider) (bypass : ClkRegbit)
  | fixedDiv (gate : ClkRegbit) (div : Nat)
  | bypassFixedDiv (gate : ClkRegbit) (div : Nat) (bypass : ClkRegbit)
  | mux (gate : ClkRegbit) (div : ClkDivider) (mux : ClkRegfield)
  | bypassMux (gate : ClkRegbit) (div : ClkDivider) (mux : ClkRegfield) (bypass : ClkRegbit)
  | mmux (gate : ClkRegbit) (mmux : ClkMmux) (mux : Bool → ClkRegfield)
      (parentInfos : List MmuxParent)
  | audio (aclk : ClkAudio)
  | ipll (pllReg : Nat) (pllPwd : ClkRegbit)
  | fpll (pllPwd : ClkRegbit) (pll : ClkFpll)

/-- A clock with the clocks it can hang from. -/
structure ClkRow where
  id : ClkId
  parents : List ClkId
  flags : BitVec 32
  hw : ClkHw

/-! ## The macros -/

/-- A divider, whose field is `width` bits from bit 16 on. -/
def clkDiv (offset : Nat) (width : Fin 17) (pos : 0 < width.val) (divInit : Nat) : ClkDivider :=
  ⟨⟨offset, 16, width, pos, by omega⟩, divInit, show 3 < 16 by decide⟩

/- The shapes of the fields: 4, 5, 6, 8 or 16 bits of a divider, 2 bits for a source. -/
def div4 (offset divInit : Nat) : ClkDivider := clkDiv offset 4 (by decide) divInit

def div5 (offset divInit : Nat) : ClkDivider := clkDiv offset 5 (by decide) divInit

def div6 (offset divInit : Nat) : ClkDivider := clkDiv offset 6 (by decide) divInit

def div8 (offset divInit : Nat) : ClkDivider := clkDiv offset 8 (by decide) divInit

def div16 (offset divInit : Nat) : ClkDivider := clkDiv offset 16 (by decide) divInit

def mux2 (offset : Nat) : ClkRegfield := ⟨offset, 8, 2, Nat.two_pos, clkSd0.mux.le⟩

/-- `CV1800B_GATE`. -/
def cv1800bGate (id parent : ClkId) (gateOffset gateShift : Nat) (flags : BitVec 32) : ClkRow :=
  ⟨id, [parent], flags, .gate ⟨gateOffset, gateShift⟩⟩

/-- `CV1800B_DIV`. -/
def cv1800bDiv (id parent : ClkId) (gateOffset gateShift : Nat) (div : ClkDivider)
    (flags : BitVec 32) : ClkRow :=
  ⟨id, [parent], flags, .div ⟨gateOffset, gateShift⟩ div⟩

/-- `CV1800B_BYPASS_DIV`. -/
def cv1800bBypassDiv (id parent : ClkId) (gateOffset gateShift : Nat) (div : ClkDivider)
    (bypassOffset bypassShift : Nat) (flags : BitVec 32) : ClkRow :=
  ⟨id, [parent], flags, .bypassDiv ⟨gateOffset, gateShift⟩ div ⟨bypassOffset, bypassShift⟩⟩

/-- `CV1800B_FIXED_DIV`. -/
def cv1800bFixedDiv (id parent : ClkId) (gateOffset gateShift div : Nat) (flags : BitVec 32) :
    ClkRow :=
  ⟨id, [parent], flags, .fixedDiv ⟨gateOffset, gateShift⟩ div⟩

/-- `CV1800B_BYPASS_FIXED_DIV`. -/
def cv1800bBypassFixedDiv (id parent : ClkId) (gateOffset gateShift div : Nat)
    (bypassOffset bypassShift : Nat) (flags : BitVec 32) : ClkRow :=
  ⟨id, [parent], flags, .bypassFixedDiv ⟨gateOffset, gateShift⟩ div ⟨bypassOffset, bypassShift⟩⟩

/-- `CV1800B_MUX`. -/
def cv1800bMux (id : ClkId) (parents : List ClkId) (gateOffset gateShift : Nat) (div : ClkDivider)
    (mux : ClkRegfield) (flags : BitVec 32) : ClkRow :=
  ⟨id, parents, flags, .mux ⟨gateOffset, gateShift⟩ div mux⟩

/-- `CV1800B_BYPASS_MUX`. -/
def cv1800bBypassMux (id : ClkId) (parents : List ClkId) (gateOffset gateShift : Nat)
    (div : ClkDivider) (mux : ClkRegfield) (bypassOffset bypassShift : Nat) (flags : BitVec 32) :
    ClkRow :=
  ⟨id, parents, flags,
    .bypassMux ⟨gateOffset, gateShift⟩ div mux ⟨bypassOffset, bypassShift⟩⟩

/-- `CV1800B_MMUX`. -/
def cv1800bMmux (id : ClkId) (parentInfos : List MmuxParent) (gateOffset gateShift : Nat)
    (div0 div1 : ClkDivider) (mux0 mux1 : ClkRegfield) (bypassOffset bypassShift : Nat)
    (clkSelOffset clkSelShift : Nat) (flags : BitVec 32) : ClkRow :=
  ⟨id, parentInfos.map MmuxParent.id, flags,
    .mmux ⟨gateOffset, gateShift⟩
      ⟨fun clkSel => bif clkSel then div1 else div0, ⟨bypassOffset, bypassShift⟩,
        ⟨clkSelOffset, clkSelShift⟩⟩
      (fun clkSel => bif clkSel then mux1 else mux0) parentInfos⟩

/-- `CV1800B_AUDIO`. -/
def cv1800bAudio (id parent : ClkId) (aclk : ClkAudio) (flags : BitVec 32) : ClkRow :=
  ⟨id, [parent], flags, .audio aclk⟩

/-- `CV1800B_IPLL`. -/
def cv1800bIpll (id parent : ClkId) (pllReg pllPwdOffset pllPwdShift : Nat) (flags : BitVec 32) :
    ClkRow :=
  ⟨id, [parent], flags, .ipll pllReg ⟨pllPwdOffset, pllPwdShift⟩⟩

/-- `CV1800B_FPLL`. -/
def cv1800bFpll (id parent : ClkId) (pllReg pllPwdOffset pllPwdShift : Nat)
    (synEnOffset synEnShift synClkHalfOffset synClkHalfShift synSet : Nat) (flags : BitVec 32) :
    ClkRow :=
  ⟨id, [parent], flags, .fpll ⟨pllPwdOffset, pllPwdShift⟩
    ⟨pllReg, ⟨synEnOffset, synEnShift⟩, ⟨synClkHalfOffset, synClkHalfShift⟩, synSet⟩⟩

/-! ## The arrays -/

def clkCamParents : List ClkId := [.clkCam0pll, .clkCam0pllD2, .clkCam0pllD3, .clkMipimpllD3]

def clkTpuParents : List ClkId := [.clkTpll, .clkA0pll, .clkMipimpll, .clkFpll]

def clkAxi4Parents : List ClkId := [.clkFpll, .clkDisppll]

def clkAudParents : List ClkId := [.clkA0pll, .clkA24m]

def clkCam0_200Parents : List ClkId := [.osc, .clkDisppll]

def clkVipSysParents : List ClkId := [.clkMipimpll, .clkCam0pll, .clkDisppll, .clkFpll]

def clkAxiVideoCodecParents : List ClkId := [.clkA0pll, .clkMipimpll, .clkCam1pll, .clkFpll]

def clkVcSrc0Parents : List ClkId := [.clkDisppll, .clkMipimpll, .clkCam1pll, .clkFpll]

def clkC906_0Parents : List MmuxParent := [
  ⟨.clkTpll, false, 0⟩, ⟨.clkA0pll, false, 1⟩, ⟨.clkMipimpll, false, 2⟩, ⟨.clkMpll, false, 3⟩,
  ⟨.clkFpll, true, 0⟩]

def clkC906_1Parents : List MmuxParent := [
  ⟨.clkTpll, false, 0⟩, ⟨.clkA0pll, false, 1⟩, ⟨.clkDisppll, false, 2⟩, ⟨.clkMpll, false, 3⟩,
  ⟨.clkFpll, true, 0⟩]

def clkA53Parents : List MmuxParent := [
  ⟨.clkTpll, false, 0⟩, ⟨.clkA0pll, false, 1⟩, ⟨.clkMipimpll, false, 2⟩, ⟨.clkMpll, false, 3⟩,
  ⟨.clkFpll, true, 0⟩]

/-- `cv1800b_ipll_info`. -/
def cv1800bIpllInfo : List ClkRow := [
  cv1800bIpll .clkFpll .osc REG_FPLL_CSR REG_PLL_G6_CTRL 8 CLK_IS_CRITICAL,
  cv1800bIpll .clkMipimpll .osc REG_MIPIMPLL_CSR REG_PLL_G2_CTRL 0 CLK_IS_CRITICAL]

/-- `cv1800b_fpll_info`. -/
def cv1800bFpllInfo : List ClkRow := [
  cv1800bFpll .clkMpll .osc REG_MPLL_CSR REG_PLL_G6_CTRL 0 REG_PLL_G6_SSC_SYN_CTRL 2
    REG_PLL_G6_SSC_SYN_CTRL 0 REG_MPLL_SSC_SYN_SET CLK_IS_CRITICAL,
  cv1800bFpll .clkTpll .osc REG_TPLL_CSR REG_PLL_G6_CTRL 4 REG_PLL_G6_SSC_SYN_CTRL 3
    REG_PLL_G6_SSC_SYN_CTRL 0 REG_TPLL_SSC_SYN_SET CLK_IS_CRITICAL,
  cv1800bFpll .clkA0pll .clkMipimpll REG_A0PLL_CSR REG_PLL_G2_CTRL 4 REG_PLL_G2_SSC_SYN_CTRL 2
    REG_PLL_G2_SSC_SYN_CTRL 0 REG_A0PLL_SSC_SYN_SET CLK_IS_CRITICAL,
  cv1800bFpll .clkDisppll .clkMipimpll REG_DISPPLL_CSR REG_PLL_G2_CTRL 8 REG_PLL_G2_SSC_SYN_CTRL 3
    REG_PLL_G2_SSC_SYN_CTRL 0 REG_DISPPLL_SSC_SYN_SET CLK_IS_CRITICAL,
  cv1800bFpll .clkCam0pll .clkMipimpll REG_CAM0PLL_CSR REG_PLL_G2_CTRL 12
    REG_PLL_G2_SSC_SYN_CTRL 4 REG_PLL_G2_SSC_SYN_CTRL 0 REG_CAM0PLL_SSC_SYN_SET CLK_IGNORE_UNUSED,
  cv1800bFpll .clkCam1pll .clkMipimpll REG_CAM1PLL_CSR REG_PLL_G2_CTRL 16
    REG_PLL_G2_SSC_SYN_CTRL 5 REG_PLL_G2_SSC_SYN_CTRL 0 REG_CAM1PLL_SSC_SYN_SET CLK_IS_CRITICAL]

/-- `cv1800b_div_info`. -/
def cv1800bDivInfo : List ClkRow := [
  cv1800bDiv .clk1m .osc REG_CLK_EN_3 5 (div6 REG_DIV_CLK_1M 25) CLK_IS_CRITICAL,
  cv1800bDiv .clkEmmc100k .clk1m REG_CLK_EN_0 17 (div8 REG_DIV_CLK_EMMC_100K 10) 0,
  cv1800bDiv .clkSd0_100k .clk1m REG_CLK_EN_0 20 (div8 REG_DIV_CLK_SD0_100K 10) 0,
  cv1800bDiv .clkSd1_100k .clk1m REG_CLK_EN_0 23 (div8 REG_DIV_CLK_SD1_100K 10) 0,
  cv1800bDiv .clkGpioDb .clk1m REG_CLK_EN_0 31 (div16 REG_DIV_CLK_GPIO_DB 10) CLK_IS_CRITICAL]

/-- `cv1800b_fixed_div_info`. -/
def cv1800bFixedDivInfo : List ClkRow := [
  cv1800bFixedDiv .clkCam0pllD2 .clkCam0pll REG_CAM0PLL_CLK_CSR 1 2
    (CLK_SET_RATE_PARENT ||| CLK_IGNORE_UNUSED),
  cv1800bFixedDiv .clkCam0pllD3 .clkCam0pll REG_CAM0PLL_CLK_CSR 2 3
    (CLK_SET_RATE_PARENT ||| CLK_IGNORE_UNUSED),
  cv1800bFixedDiv .clkMipimpllD3 .clkMipimpll REG_MIPIMPLL_CLK_CSR 2 3
    (CLK_SET_RATE_PARENT ||| CLK_IGNORE_UNUSED),
  cv1800bFixedDiv .clkUsb33k .clk1m REG_CLK_EN_1 31 3 0]

/-- `cv1800b_bypass_fixed_div_info`. -/
def cv1800bBypassFixedDivInfo : List ClkRow := [
  cv1800bBypassFixedDiv .clkUsb125m .clkFpll REG_CLK_EN_1 30 12 REG_CLK_BYP_0 17
    CLK_SET_RATE_PARENT,
  cv1800bBypassFixedDiv .clkUsb12m .clkFpll REG_CLK_EN_2 0 125 REG_CLK_BYP_0 18
    CLK_SET_RATE_PARENT,
  cv1800bBypassFixedDiv .clkVcSrc1 .clkFpll REG_CLK_EN_3 28 2 REG_CLK_BYP_1 0 CLK_SET_RATE_PARENT,
  cv1800bBypassFixedDiv .clkVcSrc2 .clkFpll REG_CLK_EN_4 3 3 REG_CLK_BYP_1 3 CLK_SET_RATE_PARENT]

/-- `cv1800b_mux_info`. -/
def cv1800bMuxInfo : List ClkRow := [
  cv1800bMux .clkCam0 clkCamParents REG_CLK_EN_2 16 (div6 REG_CLK_CAM0_SRC_DIV 0)
    (mux2 REG_CLK_CAM0_SRC_DIV) CLK_IGNORE_UNUSED,
  cv1800bMux .clkCam1 clkCamParents REG_CLK_EN_2 17 (div6 REG_CLK_CAM1_SRC_DIV 0)
    (mux2 REG_CLK_CAM1_SRC_DIV) CLK_IGNORE_UNUSED]

/-- `cv1800b_mmux_info`. -/
def cv1800bMmuxInfo : List ClkRow := [
  cv1800bMmux .clkC906_0 clkC906_0Parents REG_CLK_EN_4 13 (div4 REG_DIV_CLK_C906_0_0 1)
    (div4 REG_DIV_CLK_C906_0_1 2) (mux2 REG_DIV_CLK_C906_0_0) (mux2 REG_DIV_CLK_C906_0_1)
    REG_CLK_BYP_1 6 REG_CLK_SEL_0 23 (CLK_IS_CRITICAL ||| CLK_GET_RATE_NOCACHE),
  cv1800bMmux .clkC906_1 clkC906_1Parents REG_CLK_EN_4 14 (div4 REG_DIV_CLK_C906_1_0 2)
    (div4 REG_DIV_CLK_C906_1_1 3) (mux2 REG_DIV_CLK_C906_1_0) (mux2 REG_DIV_CLK_C906_1_1)
    REG_CLK_BYP_1 7 REG_CLK_SEL_0 24 (CLK_IS_CRITICAL ||| CLK_GET_RATE_NOCACHE),
  cv1800bMmux .clkA53 clkA53Parents REG_CLK_EN_0 0 (div4 REG_DIV_CLK_A53_0 1)
    (div4 REG_DIV_CLK_A53_1 2) (mux2 REG_DIV_CLK_A53_0) (mux2 REG_DIV_CLK_A53_1) REG_CLK_BYP_0 0
    REG_CLK_SEL_0 0 (CLK_IS_CRITICAL ||| CLK_GET_RATE_NOCACHE)]

/-- `cv1800b_audio_info`. -/
def cv1800bAudioInfo : List ClkRow := [cv1800bAudio .clkA24m .clkMipimpll clkA24m 0]

/-- `cv1800b_bypass_mux_info`. -/
def cv1800bBypassMuxInfo : List ClkRow := [
  cv1800bBypassMux .clkTpu clkTpuParents REG_CLK_EN_0 4 (div4 REG_DIV_CLK_TPU 3)
    (mux2 REG_DIV_CLK_TPU) REG_CLK_BYP_0 3 0,
  cv1800bBypassMux .clkEmmc clkAxi4Parents REG_CLK_EN_0 16 (div5 REG_DIV_CLK_EMMC 15)
    (mux2 REG_DIV_CLK_EMMC) REG_CLK_BYP_0 5 0,
  cv1800bBypassMux .clkSd0 clkAxi4Parents REG_CLK_EN_0 19 (div5 REG_DIV_CLK_SD0 15)
    (mux2 REG_DIV_CLK_SD0) REG_CLK_BYP_0 6 0,
  cv1800bBypassMux .clkSd1 clkAxi4Parents REG_CLK_EN_0 22 (div5 REG_DIV_CLK_SD1 15)
    (mux2 REG_DIV_CLK_SD1) REG_CLK_BYP_0 7 0,
  cv1800bBypassMux .clkSpiNand clkAxi4Parents REG_CLK_EN_0 24 (div5 REG_DIV_CLK_SPI_NAND 8)
    (mux2 REG_DIV_CLK_SPI_NAND) REG_CLK_BYP_0 8 0,
  cv1800bBypassMux .clkAxi4 clkAxi4Parents REG_CLK_EN_2 1 (div4 REG_DIV_CLK_AXI4 5)
    (mux2 REG_DIV_CLK_AXI4) REG_CLK_BYP_0 19 CLK_IS_CRITICAL,
  cv1800bBypassMux .clkPwmSrc clkAxi4Parents REG_CLK_EN_4 4 (div6 REG_DIV_CLK_PWM_SRC_0 10)
    (mux2 REG_DIV_CLK_PWM_SRC_0) REG_CLK_BYP_0 15 CLK_IS_CRITICAL,
  cv1800bBypassMux .clkAudsrc clkAudParents REG_CLK_EN_4 1 (div8 REG_DIV_CLK_AUDSRC 18)
    (mux2 REG_DIV_CLK_AUDSRC) REG_CLK_BYP_1 2 0,
  cv1800bBypassMux .clkSdmaAud0 clkAudParents REG_CLK_EN_1 2 (div8 REG_DIV_CLK_SDMA_AUD0 18)
    (mux2 REG_DIV_CLK_SDMA_AUD0) REG_CLK_BYP_0 11 0,
  cv1800bBypassMux .clkSdmaAud1 clkAudParents REG_CLK_EN_1 3 (div8 REG_DIV_CLK_SDMA_AUD1 18)
    (mux2 REG_DIV_CLK_SDMA_AUD1) REG_CLK_BYP_0 12 0,
  cv1800bBypassMux .clkSdmaAud2 clkAudParents REG_CLK_EN_1 3 (div8 REG_DIV_CLK_SDMA_AUD2 18)
    (mux2 REG_DIV_CLK_SDMA_AUD2) REG_CLK_BYP_0 13 0,
  cv1800bBypassMux .clkSdmaAud3 clkAudParents REG_CLK_EN_1 3 (div8 REG_DIV_CLK_SDMA_AUD3 18)
    (mux2 REG_DIV_CLK_SDMA_AUD3) REG_CLK_BYP_0 14 0,
  cv1800bBypassMux .clkCam0_200 clkCam0_200Parents REG_CLK_EN_1 13
    (div4 REG_DIV_CLK_CAM0_200 1) (mux2 REG_DIV_CLK_CAM0_200) REG_CLK_BYP_0 16 CLK_IS_CRITICAL,
  cv1800bBypassMux .clkAxiVip clkVipSysParents REG_CLK_EN_2 4 (div4 REG_DIV_CLK_AXI_VIP 3)
    (mux2 REG_DIV_CLK_AXI_VIP) REG_CLK_BYP_0 22 0,
  cv1800bBypassMux .clkSrcVipSys0 clkVipSysParents REG_CLK_EN_2 5
    (div4 REG_DIV_CLK_SRC_VIP_SYS_0 6) (mux2 REG_DIV_CLK_SRC_VIP_SYS_0) REG_CLK_BYP_0 23 0,
  cv1800bBypassMux .clkSrcVipSys1 clkVipSysParents REG_CLK_EN_2 6
    (div4 REG_DIV_CLK_SRC_VIP_SYS_1 6) (mux2 REG_DIV_CLK_SRC_VIP_SYS_1) REG_CLK_BYP_0 24 0,
  cv1800bBypassMux .clkSrcVipSys2 clkVipSysParents REG_CLK_EN_3 29
    (div4 REG_DIV_CLK_SRC_VIP_SYS_2 2) (mux2 REG_DIV_CLK_SRC_VIP_SYS_2) REG_CLK_BYP_1 1 0,
  cv1800bBypassMux .clkSrcVipSys3 clkVipSysParents REG_CLK_EN_4 15
    (div4 REG_DIV_CLK_SRC_VIP_SYS_3 2) (mux2 REG_DIV_CLK_SRC_VIP_SYS_3) REG_CLK_BYP_1 8 0,
  cv1800bBypassMux .clkSrcVipSys4 clkVipSysParents REG_CLK_EN_4 16
    (div4 REG_DIV_CLK_SRC_VIP_SYS_4 3) (mux2 REG_DIV_CLK_SRC_VIP_SYS_4) REG_CLK_BYP_1 9 0,
  cv1800bBypassMux .clkAxiVideoCodec clkAxiVideoCodecParents REG_CLK_EN_2 8
    (div4 REG_DIV_CLK_AXI_VIDEO_CODEC 2) (mux2 REG_DIV_CLK_AXI_VIDEO_CODEC) REG_CLK_BYP_0 26 0,
  cv1800bBypassMux .clkVcSrc0 clkVcSrc0Parents REG_CLK_EN_2 9 (div4 REG_DIV_CLK_VC_SRC0 2)
    (mux2 REG_DIV_CLK_VC_SRC0) REG_CLK_BYP_0 27 0]

/-- `cv1800b_bypass_div_info`. -/
def cv1800bBypassDivInfo : List ClkRow := [
  cv1800bBypassDiv .clkApDebug .clkFpll REG_CLK_EN_4 5 (div4 REG_DIV_CLK_AP_DEBUG 5)
    REG_CLK_BYP_1 4 CLK_IS_CRITICAL,
  cv1800bBypassDiv .clkSrcRtcSys0 .clkFpll REG_CLK_EN_4 6 (div4 REG_DIV_CLK_RTCSYS_SRC_0 5)
    REG_CLK_BYP_1 5 CLK_IS_CRITICAL,
  cv1800bBypassDiv .clkCpuGic .clkFpll REG_CLK_EN_0 2 (div4 REG_DIV_CLK_CPU_GIC 5) REG_CLK_BYP_0 2
    CLK_IS_CRITICAL,
  cv1800bBypassDiv .clkEth0_500m .clkFpll REG_CLK_EN_0 25 (div4 REG_DIV_CLK_GPIO_DB 3)
    REG_CLK_BYP_0 9 0,
  cv1800bBypassDiv .clkEth1_500m .clkFpll REG_CLK_EN_0 27 (div4 REG_DIV_CLK_GPIO_DB 3)
    REG_CLK_BYP_0 10 0,
  cv1800bBypassDiv .clkAxi6 .clkFpll REG_CLK_EN_2 2 (div4 REG_DIV_CLK_AXI6 15) REG_CLK_BYP_0 20
    CLK_IS_CRITICAL,
  cv1800bBypassDiv .clkSpi .clkFpll REG_CLK_EN_3 6 (div6 REG_DIV_CLK_SPI 8) REG_CLK_BYP_0 30 0,
  cv1800bBypassDiv .clkDispSrcVip .clkDisppll REG_CLK_EN_2 7 (div4 REG_DIV_CLK_DISP_SRC_VIP 8)
    REG_CLK_BYP_0 25 0,
  cv1800bBypassDiv .clkCpuAxi0 .clkAxi4 REG_CLK_EN_0 1 (div4 REG_DIV_CLK_CPU_AXI0 3)
    REG_CLK_BYP_0 1 CLK_IS_CRITICAL,
  cv1800bBypassDiv .clkDsiEsc .clkAxi6 REG_CLK_EN_2 3 (div4 REG_DIV_CLK_DSI_ESC 5)
    REG_CLK_BYP_0 21 0,
  cv1800bBypassDiv .clkI2c .clkAxi6 REG_CLK_EN_3 7 (div4 REG_DIV_CLK_I2C 1) REG_CLK_BYP_0 31 0]

/-- `cv1800b_gate_info`. -/
def cv1800bGateInfo : List ClkRow := [
  cv1800bGate .clkXtalAp .osc REG_CLK_EN_0 3 CLK_IS_CRITICAL,
  cv1800bGate .clkRtc25m .osc REG_CLK_EN_0 8 CLK_IS_CRITICAL,
  cv1800bGate .clkTempsen .osc REG_CLK_EN_0 9 0,
  cv1800bGate .clkSaradc .osc REG_CLK_EN_0 10 0,
  cv1800bGate .clkEfuse .osc REG_CLK_EN_0 11 0,
  cv1800bGate .clkApbEfuse .osc REG_CLK_EN_0 12 0,
  cv1800bGate .clkDebug .osc REG_CLK_EN_0 13 CLK_IS_CRITICAL,
  cv1800bGate .clkXtalMisc .osc REG_CLK_EN_0 14 CLK_IS_CRITICAL,
  cv1800bGate .clkApbWdt .osc REG_CLK_EN_1 7 CLK_IS_CRITICAL,
  cv1800bGate .clkWgn .osc REG_CLK_EN_3 22 0,
  cv1800bGate .clkWgn0 .osc REG_CLK_EN_3 23 0,
  cv1800bGate .clkWgn1 .osc REG_CLK_EN_3 24 0,
  cv1800bGate .clkWgn2 .osc REG_CLK_EN_3 25 0,
  cv1800bGate .clkKeyscan .osc REG_CLK_EN_3 26 0,
  cv1800bGate .clkTpuFab .clkMipimpll REG_CLK_EN_0 5 0,
  cv1800bGate .clkAhbRom .clkAxi4 REG_CLK_EN_0 6 0,
  cv1800bGate .clkAxi4Emmc .clkAxi4 REG_CLK_EN_0 15 0,
  cv1800bGate .clkAxi4Sd0 .clkAxi4 REG_CLK_EN_0 18 0,
  cv1800bGate .clkAxi4Sd1 .clkAxi4 REG_CLK_EN_0 21 0,
  cv1800bGate .clkAxi4Eth0 .clkAxi4 REG_CLK_EN_0 26 0,
  cv1800bGate .clkAxi4Eth1 .clkAxi4 REG_CLK_EN_0 28 0,
  cv1800bGate .clkAhbSf .clkAxi4 REG_CLK_EN_1 0 0,
  cv1800bGate .clkSdmaAxi .clkAxi4 REG_CLK_EN_1 1 0,
  cv1800bGate .clkApbI2c .clkAxi4 REG_CLK_EN_1 6 0,
  cv1800bGate .clkApbSpi0 .clkAxi4 REG_CLK_EN_1 9 0,
  cv1800bGate .clkApbSpi1 .clkAxi4 REG_CLK_EN_1 10 0,
  cv1800bGate .clkApbSpi2 .clkAxi4 REG_CLK_EN_1 11 0,
  cv1800bGate .clkApbSpi3 .clkAxi4 REG_CLK_EN_1 12 0,
  cv1800bGate .clkApbUart0 .clkAxi4 REG_CLK_EN_1 15 CLK_IS_CRITICAL,
  cv1800bGate .clkApbUart1 .clkAxi4 REG_CLK_EN_1 17 0,
  cv1800bGate .clkApbUart2 .clkAxi4 REG_CLK_EN_1 19 0,
  cv1800bGate .clkApbUart3 .clkAxi4 REG_CLK_EN_1 21 0,
  cv1800bGate .clkApbUart4 .clkAxi4 REG_CLK_EN_1 23 0,
  cv1800bGate .clkApbI2s0 .clkAxi4 REG_CLK_EN_1 24 0,
  cv1800bGate .clkApbI2s1 .clkAxi4 REG_CLK_EN_1 25 0,
  cv1800bGate .clkApbI2s2 .clkAxi4 REG_CLK_EN_1 26 0,
  cv1800bGate .clkApbI2s3 .clkAxi4 REG_CLK_EN_1 27 0,
  cv1800bGate .clkAxi4Usb .clkAxi4 REG_CLK_EN_1 28 0,
  cv1800bGate .clkApbUsb .clkAxi4 REG_CLK_EN_1 29 0,
  cv1800bGate .clkApbI2c0 .clkAxi4 REG_CLK_EN_3 17 0,
  cv1800bGate .clkApbI2c1 .clkAxi4 REG_CLK_EN_3 18 0,
  cv1800bGate .clkApbI2c2 .clkAxi4 REG_CLK_EN_3 19 0,
  cv1800bGate .clkApbI2c3 .clkAxi4 REG_CLK_EN_3 20 0,
  cv1800bGate .clkApbI2c4 .clkAxi4 REG_CLK_EN_3 21 0,
  cv1800bGate .clkAhbSf1 .clkAxi4 REG_CLK_EN_3 27 0,
  cv1800bGate .clkApbAudsrc .clkAxi4 REG_CLK_EN_4 2 0,
  cv1800bGate .clkDdrAxiReg .clkAxi6 REG_CLK_EN_0 7 CLK_IS_CRITICAL,
  cv1800bGate .clkApbGpio .clkAxi6 REG_CLK_EN_0 29 CLK_IS_CRITICAL,
  cv1800bGate .clkApbGpioIntr .clkAxi6 REG_CLK_EN_0 30 CLK_IS_CRITICAL,
  cv1800bGate .clkApbJpeg .clkAxi6 REG_CLK_EN_2 13 CLK_IGNORE_UNUSED,
  cv1800bGate .clkApbH264c .clkAxi6 REG_CLK_EN_2 14 0,
  cv1800bGate .clkApbH265c .clkAxi6 REG_CLK_EN_2 15 0,
  cv1800bGate .clkPm .clkAxi6 REG_CLK_EN_3 8 CLK_IS_CRITICAL,
  cv1800bGate .clkCfgRegVip .clkAxi6 REG_CLK_EN_3 31 0,
  cv1800bGate .clkCfgRegVc .clkAxi6 REG_CLK_EN_4 0 CLK_IGNORE_UNUSED,
  cv1800bGate .clkPwm .clkPwmSrc REG_CLK_EN_1 8 CLK_IS_CRITICAL,
  cv1800bGate .clkUart0 .clkCam0_200 REG_CLK_EN_1 14 CLK_IS_CRITICAL,
  cv1800bGate .clkUart1 .clkCam0_200 REG_CLK_EN_1 16 0,
  cv1800bGate .clkUart2 .clkCam0_200 REG_CLK_EN_1 18 0,
  cv1800bGate .clkUart3 .clkCam0_200 REG_CLK_EN_1 20 0,
  cv1800bGate .clkUart4 .clkCam0_200 REG_CLK_EN_1 22 0,
  cv1800bGate .clkH264c .clkAxiVideoCodec REG_CLK_EN_2 10 0,
  cv1800bGate .clkH265c .clkAxiVideoCodec REG_CLK_EN_2 11 0,
  cv1800bGate .clkJpeg .clkAxiVideoCodec REG_CLK_EN_2 12 CLK_IGNORE_UNUSED,
  cv1800bGate .clkCsiMac0Vip .clkAxiVip REG_CLK_EN_2 18 0,
  cv1800bGate .clkCsiMac1Vip .clkAxiVip REG_CLK_EN_2 19 0,
  cv1800bGate .clkIspTopVip .clkAxiVip REG_CLK_EN_2 20 0,
  cv1800bGate .clkImgDVip .clkAxiVip REG_CLK_EN_2 21 0,
  cv1800bGate .clkImgVVip .clkAxiVip REG_CLK_EN_2 22 0,
  cv1800bGate .clkScTopVip .clkAxiVip REG_CLK_EN_2 23 0,
  cv1800bGate .clkScDVip .clkAxiVip REG_CLK_EN_2 24 0,
  cv1800bGate .clkScV1Vip .clkAxiVip REG_CLK_EN_2 25 0,
  cv1800bGate .clkScV2Vip .clkAxiVip REG_CLK_EN_2 26 0,
  cv1800bGate .clkScV3Vip .clkAxiVip REG_CLK_EN_2 27 0,
  cv1800bGate .clkDwaVip .clkAxiVip REG_CLK_EN_2 28 0,
  cv1800bGate .clkBtVip .clkAxiVip REG_CLK_EN_2 29 0,
  cv1800bGate .clkDispVip .clkAxiVip REG_CLK_EN_2 30 0,
  cv1800bGate .clkDsiMacVip .clkAxiVip REG_CLK_EN_2 31 0,
  cv1800bGate .clkLvds0Vip .clkAxiVip REG_CLK_EN_3 0 0,
  cv1800bGate .clkLvds1Vip .clkAxiVip REG_CLK_EN_3 1 0,
  cv1800bGate .clkCsi0RxVip .clkAxiVip REG_CLK_EN_3 2 0,
  cv1800bGate .clkCsi1RxVip .clkAxiVip REG_CLK_EN_3 3 0,
  cv1800bGate .clkPadViVip .clkAxiVip REG_CLK_EN_3 4 0,
  cv1800bGate .clkPadVi1Vip .clkAxiVip REG_CLK_EN_3 30 0,
  cv1800bGate .clkPadVi2Vip .clkAxiVip REG_CLK_EN_4 7 0,
  cv1800bGate .clkCsiBeVip .clkAxiVip REG_CLK_EN_4 8 0,
  cv1800bGate .clkVipIp0 .clkAxiVip REG_CLK_EN_4 9 0,
  cv1800bGate .clkVipIp1 .clkAxiVip REG_CLK_EN_4 10 0,
  cv1800bGate .clkVipIp2 .clkAxiVip REG_CLK_EN_4 11 0,
  cv1800bGate .clkVipIp3 .clkAxiVip REG_CLK_EN_4 12 0,
  cv1800bGate .clkIveVip .clkAxiVip REG_CLK_EN_4 17 0,
  cv1800bGate .clkRawVip .clkAxiVip REG_CLK_EN_4 18 0,
  cv1800bGate .clkOsdcVip .clkAxiVip REG_CLK_EN_4 19 0,
  cv1800bGate .clkCsiMac2Vip .clkAxiVip REG_CLK_EN_4 20 0,
  cv1800bGate .clkCam0Vip .clkAxiVip REG_CLK_EN_4 21 0,
  cv1800bGate .clkTimer0 .clkXtalMisc REG_CLK_EN_3 9 CLK_IS_CRITICAL,
  cv1800bGate .clkTimer1 .clkXtalMisc REG_CLK_EN_3 10 CLK_IS_CRITICAL,
  cv1800bGate .clkTimer2 .clkXtalMisc REG_CLK_EN_3 11 CLK_IS_CRITICAL,
  cv1800bGate .clkTimer3 .clkXtalMisc REG_CLK_EN_3 12 CLK_IS_CRITICAL,
  cv1800bGate .clkTimer4 .clkXtalMisc REG_CLK_EN_3 13 CLK_IS_CRITICAL,
  cv1800bGate .clkTimer5 .clkXtalMisc REG_CLK_EN_3 14 CLK_IS_CRITICAL,
  cv1800bGate .clkTimer6 .clkXtalMisc REG_CLK_EN_3 15 CLK_IS_CRITICAL,
  cv1800bGate .clkTimer7 .clkXtalMisc REG_CLK_EN_3 16 CLK_IS_CRITICAL]

/-- The clocks in the order of their registration. -/
def clkTable : List ClkRow :=
  [⟨.osc, [], 0, .fixedRate⟩, ⟨.bypass, [], 0, .fixedRate⟩] ++ cv1800bIpllInfo ++
    cv1800bFpllInfo ++ cv1800bDivInfo ++ cv1800bFixedDivInfo ++ cv1800bBypassFixedDivInfo ++
    cv1800bMuxInfo ++ cv1800bMmuxInfo ++ cv1800bAudioInfo ++ cv1800bBypassMuxInfo ++
    cv1800bBypassDivInfo ++ cv1800bGateInfo

/-! ## Looking a clock up -/

theorem ctorIdx_lt (c : ClkId) : c.ctorIdx < 164 := by
  cases c <;> decide

instance (P : ClkId → Prop) [DecidablePred P] : Decidable (∀ c, P c) :=
  decidable_of_iff (∀ i < 164, P (.ofNat i))
    ⟨fun h c => ClkId.ofNat_ctorIdx c ▸ h _ (ctorIdx_lt c), fun h _ _ => h _⟩

/-- Every id has a row. -/
theorem find_isSome : ∀ c : ClkId, (clkTable.find? fun row => decide (row.id = c)).isSome = true := by
  decide +kernel

/-- The row of a clock. -/
def clkRow (c : ClkId) : ClkRow :=
  (clkTable.find? fun row => decide (row.id = c)).get (find_isSome c)

theorem clkRow_mem (c : ClkId) : clkRow c ∈ clkTable :=
  List.mem_of_find?_eq_some (Option.some_get (find_isSome c)).symm

theorem clkRow_id (c : ClkId) : (clkRow c).id = c := by
  have h := List.find?_some (Option.some_get (find_isSome c)).symm
  exact of_decide_eq_true h

/-! ## Switches -/

/-- The bits that turn a clock on, with the value they have then. -/
def ClkHw.switches : ClkHw → List (ClkRegbit × Bool)
  | .fixedRate => []
  | .gate bit | .div bit .. | .bypassDiv bit .. | .fixedDiv bit .. | .bypassFixedDiv bit ..
  | .mux bit .. | .bypassMux bit .. | .mmux bit .. => [(bit, true)]
  | .audio aclk => [(aclk.srcEn, true), (aclk.outputEn, true)]
  | .ipll _ pllPwd | .fpll pllPwd _ => [(pllPwd, false)]

/-! ## The order of registration -/

/-- Each row comes after the clocks it can hang from. -/
def ordered : List ClkId → List ClkRow → Bool
  | _, [] => true
  | seen, row :: rows => row.parents.all (fun p => decide (p ∈ seen)) && ordered (row.id :: seen) rows

theorem register_order : ordered [] clkTable = true := by
  decide +kernel

end ClkTable

end LicheeRvNano
