import Amlnf.Phy.Roundtrip
import Amlnf.Phy.PowerCut
import Amlnf.Phy.BootImage
import Amlnf.Phy.BootArea
import Amlnf.Phy.BootReport
import Amlnf.Phy.RetryCover
import Amlnf.Phy.RowAddress
import Amlnf.Phy.FailedErase
import Amlnf.Phy.Repair
import Amlnf.Phy.BadMark
import Amlnf.Phy.BbtModify
import Amlnf.Phy.BbtLoad
import Amlnf.Phy.ChecksumCover
import Amlnf.Phy.BlankPage
import Amlnf.Phy.ModeRestore
import Amlnf.Phy.ReadPlacement
import Amlnf.Phy.UserBytes
import Amlnf.Phy.ProgramOnce
import Amlnf.Phy.LatestCopy
import Amlnf.Phy.TableBytes
import Amlnf.Phy.Wait
import Amlnf.Phy.RetryEnds
import Amlnf.Phy.ScanEnds
import Amlnf.Dev.Tiling
import Amlnf.Dev.Range
import Amlnf.Dev.Lookups
import Amlnf.Dev.Entries
import Amlnf.Dev.EnvWrite
import Amlnf.Dev.LockDiscipline
import Amlnf.Dev.WriteGuard
import Amlnf.Dev.TableGuard
import Amlnf.Dev.MetaGuard
import Amlnf.Dev.ChipLock
import Amlnf.Ntd.Core
import Amlnf.Ntd.Queue
import Amlnf.Block.Completion
import Amlnf.Block.Lifetime
import Amlnf.Block.Wipe
import Amlnf.Block.Parts
