import EmojiPalette.Addon.Announcement
import EmojiPalette.Addon.InputIsolation
import EmojiPalette.Addon.PhysicalShortcuts
import EmojiPalette.Addon.Typing
import EmojiPalette.Core.StateLife
import EmojiPalette.Ipc.ReaderRuns
import EmojiPalette.Ipc.SessionRuns
import EmojiPalette.Ipc.TransactionText
import EmojiPalette.Model.SearchOrder
import EmojiPalette.System.Choosing
import EmojiPalette.System.RestartRecovery
import EmojiPalette.System.SuccessionRecovery
import EmojiPalette.Tools.FoundByAnnotations
import EmojiPalette.Ui.GlyphListModel
import EmojiPalette.Ui.PopupPosition
import EmojiPalette.Ui.SessionTrace
import EmojiPalette.Ui.SettingsMigration
